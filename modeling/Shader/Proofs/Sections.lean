import Mathlib.Data.List.Basic
import Shader.Proofs.Texts

/-!
# The parts of a shader can be told from its text

The sections of a shader stand apart by an empty line. Where callers have given no line breaks, no
section has an empty line in it or ends with a line break, so the text falls into its sections again,
and each section says what it was made from.

* `sectionsOf`: the text between empty lines; `decode?`: the parts of a shader, read from its text;
* `IsSolid`: a text that an empty line can end, but not divide; `isSolid_intercalate`: lines are;
* `sections_intercalate`: solid texts set apart by empty lines are found again;
* `readDeclaration?_declaration`, `mainLines?_mainBlock`: declarations and main blocks are read back;
* **`source_decoded`**: the text of a finished shader.
-/

namespace Shader

/-! ## Readers -/

/-- The texts between empty lines: a text is cut at every two line breaks, from the left. -/
def sectionsOf : List Char → List (List Char)
  | [] => [[]]
  | [c] => [[c]]
  | c :: d :: cs =>
    if c = '\n' ∧ d = '\n' then [] :: sectionsOf cs else (sectionsOf (d :: cs)).modifyHead (c :: ·)

/-- The texts between the empty lines of a source. -/
def sourceSections (source : String) : List String := (sectionsOf source.toList).map .ofList

/-- Read a line that declares a uniform. -/
def readDeclaration? (line : List Char) : Option Var := do
  let rest ← "uniform ".toList.isPrefixOf? line
  let body ← [';'].isSuffixOf? rest
  let t ← Ty.ofKeyword? (.ofList (body.takeWhile (· ≠ ' ')))
  let name ← [' '].isPrefixOf? (body.dropWhile (· ≠ ' '))
  return ⟨.ofList name, t⟩

/-- Read the lines that declare the uniforms. -/
def readDeclarations? (cs : List Char) : Option (List Var) :=
  if cs = [] then some [] else (cs.splitOn '\n').mapM readDeclaration?

/-- Read a line that is indented by two blanks. -/
def readIndented? (line : List Char) : Option String := ([' ', ' '].isPrefixOf? line).map .ofList

/-- Read the lines of a main block. -/
def mainLines? (cs : List Char) : Option (List String) :=
  match cs.splitOn '\n' with
  | head :: rest =>
    if head = "void main()\x7b".toList ∧ rest.getLast? = some ['\x7d'] then
      rest.dropLast.mapM readIndented?
    else none
  | [] => none

/-- What the text of a shader says: the uniforms, the texts of the functions, and the lines of the main
block. -/
structure Decoded where
  uniforms : List Var
  functions : List String
  main : List String
deriving DecidableEq, Repr

/-- Read the text of a shader. If the only section between the first and the last is empty, there are no
functions. -/
def decode? (source : String) : Option Decoded :=
  match sectionsOf source.toList with
  | first :: rest => do
    let uniforms ← readDeclarations? first
    let main ← mainLines? (← rest.getLast?)
    let functions := if rest.dropLast = [[]] then [] else rest.dropLast
    return ⟨uniforms, functions.map .ofList, main⟩
  | [] => none

/-! ## Sections -/

/-- Every line break is followed by another sign. -/
def IsSolid : List Char → Prop
  | [] => True
  | c :: cs => (c = '\n' → ∃ d ds, cs = d :: ds ∧ d ≠ '\n') ∧ IsSolid cs

theorem sections_cons {c d : Char} {cs : List Char} (h : c = '\n' → d ≠ '\n') :
    sectionsOf (c :: d :: cs) = (sectionsOf (d :: cs)).modifyHead (c :: ·) := by
  rw [sectionsOf, if_neg fun hcd => h hcd.1 hcd.2]

/-- A solid text is a section, if it is followed by an empty line. -/
theorem sections_append {cs : List Char} (h : IsSolid cs) (rest : List Char) :
    sectionsOf (cs ++ '\n' :: '\n' :: rest) = cs :: sectionsOf rest := by
  induction cs with
  | nil => simp [sectionsOf]
  | cons c cs ih =>
    obtain ⟨hc, hcs⟩ := h
    cases cs with
    | nil =>
      have hne : c ≠ '\n' := fun he => by simpa using hc he
      rw [List.cons_append, List.nil_append, sections_cons fun he => absurd he hne]
      simp [sectionsOf]
    | cons d cs =>
      have hne : c = '\n' → d ≠ '\n' := fun he => by
        obtain ⟨_, _, ⟨⟩, hd⟩ := hc he
        exact hd
      rw [List.cons_append, List.cons_append, sections_cons hne, ← List.cons_append, ih hcs]
      rfl

theorem sections_of_isSolid {cs : List Char} (h : IsSolid cs) : sectionsOf cs = [cs] := by
  induction cs with
  | nil => rfl
  | cons c cs ih =>
    obtain ⟨hc, hcs⟩ := h
    cases cs with
    | nil => rfl
    | cons d cs =>
      have hne : c = '\n' → d ≠ '\n' := fun he => by
        obtain ⟨_, _, ⟨⟩, hd⟩ := hc he
        exact hd
      rw [sections_cons hne, ih hcs]
      rfl

/-- **Solid texts that are set apart by empty lines are found again.** -/
theorem sections_intercalate {texts : List (List Char)} (hne : texts ≠ [])
    (h : ∀ cs ∈ texts, IsSolid cs) : sectionsOf (['\n', '\n'].intercalate texts) = texts := by
  induction texts with
  | nil => exact absurd rfl hne
  | cons cs texts ih =>
    obtain ⟨hcs, htexts⟩ := List.forall_mem_cons.1 h
    cases texts with
    | nil => simpa using sections_of_isSolid hcs
    | cons cs' texts =>
      rw [List.intercalate_cons_cons, List.append_assoc]
      exact (sections_append hcs _).trans (congrArg (cs :: ·) (ih (by simp) htexts))

/-! ## Lines are solid -/

theorem isSolid_append {cs cs' : List Char} (h : '\n' ∉ cs) (h' : IsSolid cs') : IsSolid (cs ++ cs') := by
  induction cs with
  | nil => exact h'
  | cons c cs ih =>
    obtain ⟨hc, hcs⟩ := not_or.1 (mt List.mem_cons.2 h)
    exact ⟨fun he => absurd he.symm hc, ih hcs⟩

/-- A line that is not empty and has no line break. -/
def IsLine (cs : List Char) : Prop := cs ≠ [] ∧ '\n' ∉ cs

/-- **Lines one below the other make a solid text.** -/
theorem isSolid_intercalate {lines : List (List Char)} (h : ∀ cs ∈ lines, IsLine cs) :
    IsSolid (['\n'].intercalate lines) := by
  induction lines with
  | nil => trivial
  | cons cs lines ih =>
    obtain ⟨hcs, hlines⟩ := List.forall_mem_cons.1 h
    cases lines with
    | nil =>
      have hnil : IsSolid [] := trivial
      simpa using isSolid_append hcs.2 hnil
    | cons next lines =>
      have hrest := ih hlines
      rw [List.intercalate_cons_cons, List.append_assoc]
      refine isSolid_append hcs.2 ⟨fun _ => ?_, hrest⟩
      obtain ⟨hne, hnext⟩ := hlines next List.mem_cons_self
      obtain ⟨d, ds, rfl⟩ := List.exists_cons_of_ne_nil hne
      have hd : d ≠ '\n' := fun he => hnext (he ▸ List.mem_cons_self)
      exact ⟨d, _, by rw [intercalate_cons]; rfl, hd⟩

/-! ## Blocks and declarations -/

/-- The lines of a block, the first and the last with its braces. -/
def blockLines (head : String) (lines : List String) : List (List Char) :=
  (head.toList ++ ['\x7b']) :: (lines.map (' ' :: ' ' :: ·.toList) ++ [['\x7d']])

theorem blockText_eq_intercalate (head : String) (lines : List String) :
    blockText head lines = ['\n'].intercalate (blockLines head lines) := by
  rw [blockLines, intercalate_cons, List.flatMap_append, List.flatMap_map]
  simp [blockText]

theorem isLine_blockLines {head : String} {lines : List String} (hhead : Lacks '\n' head)
    (hlines : ∀ l ∈ lines, Lacks '\n' l) : ∀ cs ∈ blockLines head lines, IsLine cs := by
  refine List.forall_mem_cons.2 ⟨?_, List.forall_mem_append.2 ⟨fun cs hcs => ?_, ?_⟩⟩
  · exact ⟨by simp, by simpa [Lacks] using hhead⟩
  · obtain ⟨l, hl, rfl⟩ := List.mem_map.1 hcs
    exact ⟨by simp, by simpa [Lacks] using hlines l hl⟩
  · exact List.forall_mem_singleton.2 ⟨by simp, by decide⟩

theorem isLine_declaration {v : Var} (h : Lacks '\n' v.name) : IsLine v.declaration.toList :=
  ⟨by simp [Var.declaration], lacks_declaration rfl h⟩

/-- **A declaration is read back.** -/
theorem readDeclaration?_declaration (v : Var) : readDeclaration? v.declaration.toList = some v := by
  obtain ⟨name, t⟩ := v
  have hline : (Var.declaration ⟨name, t⟩).toList =
      "uniform ".toList ++ (t.keyword.toList ++ ' ' :: name.toList ++ [';']) := by
    simp [Var.declaration, Var.declared]
  have htype : (t.keyword.toList ++ ' ' :: name.toList).takeWhile (· ≠ ' ') = t.keyword.toList := by
    cases t <;> rfl
  have hname : (t.keyword.toList ++ ' ' :: name.toList).dropWhile (· ≠ ' ') = [' '] ++ name.toList := by
    cases t <;> rfl
  have hkeyword : Ty.ofKeyword? (.ofList t.keyword.toList) = some t :=
    Ty.ofKeyword?_eq_some_iff.2 (String.ofList_toList).symm
  simp only [readDeclaration?, hline, List.isPrefixOf?_eq_some_iff_append_eq.2 rfl,
    List.isSuffixOf?_eq_some_iff_append_eq.2 rfl, Option.bind_eq_bind, Option.bind_some, htype, hname,
    hkeyword]
  simp

/-- What is written for each element is read for each. -/
theorem mapM_map_eq_some {α β : Type} {xs : List α} {write : α → β} {read? : β → Option α}
    (h : ∀ x, read? (write x) = some x) : (xs.map write).mapM read? = some xs := by
  induction xs with
  | nil => rfl
  | cons x xs ih => simp [List.mapM_cons, h, ih]

/-- **The declarations are read back.** -/
theorem readDeclarations?_intercalate {uniforms : List Var}
    (h : ∀ v ∈ uniforms, Lacks '\n' v.name) :
    readDeclarations? (['\n'].intercalate (uniforms.map (·.declaration.toList))) = some uniforms := by
  have hlines : ∀ cs ∈ uniforms.map (·.declaration.toList), IsLine cs := by
    intro cs hcs
    obtain ⟨v, hv, rfl⟩ := List.mem_map.1 hcs
    exact isLine_declaration (h v hv)
  cases uniforms with
  | nil => rfl
  | cons v uniforms =>
    have hne : ['\n'].intercalate ((v :: uniforms).map (·.declaration.toList)) ≠ [] := by
      rw [List.map_cons, intercalate_cons]
      exact List.append_ne_nil_of_left_ne_nil (hlines _ List.mem_cons_self).1 _
    have hsplit := List.splitOn_intercalate '\n' (fun cs hcs => (hlines cs hcs).2) (by simp)
    rw [readDeclarations?, if_neg hne, hsplit]
    exact mapM_map_eq_some readDeclaration?_declaration

/-- **The lines of a main block are read back.** -/
theorem mainLines?_mainBlock {lines : List String} (hlines : ∀ l ∈ lines, Lacks '\n' l) :
    mainLines? (blockText "void main()" lines) = some lines := by
  have hsplit : (blockText "void main()" lines).splitOn '\n' = blockLines "void main()" lines := by
    rw [blockText_eq_intercalate]
    exact List.splitOn_intercalate '\n'
      (fun cs hcs => (isLine_blockLines (by decide) hlines cs hcs).2) (by simp [blockLines])
  have hread (l : String) : readIndented? (' ' :: ' ' :: l.toList) = some l := by
    simp [readIndented?, List.isPrefixOf?]
  rw [mainLines?, hsplit, blockLines]
  dsimp only
  rw [if_pos ⟨rfl, List.getLast?_concat⟩, List.dropLast_concat]
  exact mapM_map_eq_some hread

/-! ## Shaders -/

/-- The functions keep a place among the sections, also if there are none. -/
def Output.middle (o : Output) : List String := if o.blocks = [] then [""] else o.blocks

/-- The declarations of the uniforms, one below the other. -/
def Output.declarations (o : Output) : String :=
  String.intercalate "\n" (o.uniforms.map (·.declaration))

/-- The sections of a shader: the declarations, the functions and the main block. -/
def Output.sections (o : Output) : List String :=
  o.declarations :: (o.middle ++ [mainBlock (o.main.map (·.text))])

theorem source_eq (o : Output) : o.source = String.intercalate "\n\n" o.sections := by
  rw [Output.source, Output.sections, Output.middle]
  split
  case isTrue h => simp [h, Output.declarations]
  case isFalse h =>
    have hblocks := String.intercalate_append_of_ne_nil (s := "\n\n") h
      (List.cons_ne_nil (mainBlock (o.main.map (·.text))) [])
    rw [String.intercalate_cons_of_ne_nil (l := o.blocks ++ _) (by simp), hblocks]
    simp [Output.declarations, String.append_assoc]

theorem isSolid_text {d : Definition} (hd : d.lines ≠ []) (h : ∀ t ∈ d.texts, Lacks '\n' t) :
    IsSolid d.text.toList := by
  obtain ⟨hhead, hlines⟩ := List.forall_mem_append.1 h
  rw [toList_text hd, blockText_eq_intercalate]
  refine isSolid_intercalate (isLine_blockLines (lacks_head rfl hhead) fun l hl => ?_)
  obtain ⟨line, hline, rfl⟩ := List.mem_map.1 hl
  exact lacks_text rfl (.inr rfl) fun t ht => hlines t (List.mem_flatMap.2 ⟨line, hline, ht⟩)

theorem text_ne_nil {d : Definition} (hd : d.lines ≠ []) : d.text.toList ≠ [] := by
  rw [toList_text hd]
  simp [blockText]

/-- What is known of the parts of a finished shader without line breaks in its texts. -/
structure Output.IsClear (o : Output) : Prop where
  main_ne_nil : o.main ≠ []
  lines_ne_nil : ∀ d ∈ o.functions, d.lines ≠ []
  lacks : ∀ t ∈ o.texts, Lacks '\n' t

namespace Output.IsClear

variable {o : Output}

theorem lacks_name (h : o.IsClear) : ∀ v ∈ o.uniforms, Lacks '\n' v.name := fun v hv =>
  h.lacks v.name (by simp only [Output.texts, List.mem_append]; exact .inl (.inl (List.mem_map_of_mem hv)))

theorem lacks_line (h : o.IsClear) : ∀ l ∈ o.main.map (·.text), Lacks '\n' l := by
  intro l hl
  obtain ⟨line, hline, rfl⟩ := List.mem_map.1 hl
  refine lacks_text rfl (.inr rfl) fun t ht => h.lacks t ?_
  exact List.mem_append_right _ (List.mem_flatMap.2 ⟨line, hline, ht⟩)

theorem isSolid_section (h : o.IsClear) : ∀ s ∈ o.sections, IsSolid s.toList := by
  refine List.forall_mem_cons.2 ⟨?_, List.forall_mem_append.2 ⟨fun s hs => ?_, ?_⟩⟩
  · rw [Output.declarations, String.toList_intercalate, List.map_map]
    refine isSolid_intercalate fun cs hcs => ?_
    obtain ⟨v, hv, rfl⟩ := List.mem_map.1 hcs
    exact isLine_declaration (h.lacks_name v hv)
  · unfold Output.middle at hs
    split at hs
    · obtain rfl := List.mem_singleton.1 hs
      exact trivial
    · obtain ⟨d, hd, rfl⟩ := List.mem_map.1 hs
      refine isSolid_text (h.lines_ne_nil d hd) fun t ht => h.lacks t ?_
      simp only [Output.texts, List.mem_append, List.mem_flatMap]
      exact .inl (.inr ⟨d, hd, ht⟩)
  · rw [List.forall_mem_singleton, toList_mainBlock (by simpa using h.main_ne_nil),
      blockText_eq_intercalate]
    exact isSolid_intercalate (isLine_blockLines (by decide) h.lacks_line)

/-- **The sections of a shader are the texts between its empty lines.** -/
theorem sectionsOf_source (h : o.IsClear) :
    sectionsOf o.source.toList = o.sections.map (·.toList) := by
  have hsep : "\n\n".toList = ['\n', '\n'] := rfl
  rw [source_eq, String.toList_intercalate, hsep]
  refine sections_intercalate (by simp [Output.sections]) fun cs hcs => ?_
  obtain ⟨s, hs, rfl⟩ := List.mem_map.1 hcs
  exact h.isSolid_section s hs

/-- The sections between the first and the last are the functions, unless there is none. -/
theorem middle_eq (h : o.IsClear) :
    (if o.middle.map (·.toList) = [[]] then [] else o.middle.map (·.toList)) =
      o.blocks.map (·.toList) := by
  unfold Output.middle
  split
  case isTrue hb => simp [hb]
  case isFalse hb =>
    refine if_neg fun he => ?_
    obtain ⟨block, hblocks, hnil⟩ := List.map_eq_singleton_iff.1 he
    obtain ⟨d, hd, rfl⟩ := List.mem_map.1 (hblocks ▸ List.mem_cons_self : block ∈ o.blocks)
    exact text_ne_nil (h.lines_ne_nil d hd) hnil

/-- **The text of a shader says what its parts are.** -/
theorem decode?_source (h : o.IsClear) :
    decode? o.source = some ⟨o.uniforms, o.blocks, o.main.map (·.text)⟩ := by
  have hmain : mainLines? (mainBlock (o.main.map (·.text))).toList = some (o.main.map (·.text)) := by
    rw [toList_mainBlock (by simpa using h.main_ne_nil)]
    exact mainLines?_mainBlock h.lacks_line
  have huniforms : readDeclarations? o.declarations.toList = some o.uniforms := by
    have := readDeclarations?_intercalate h.lacks_name
    rw [Output.declarations, String.toList_intercalate, List.map_map]
    exact this
  rw [decode?, h.sectionsOf_source, Output.sections, List.map_cons, List.map_append]
  simp only [List.map_cons, List.map_nil, List.getLast?_concat, List.dropLast_concat, huniforms, hmain,
    h.middle_eq, Option.bind_eq_bind, Option.bind_some]
  simp

end Output.IsClear

namespace Program

variable {σ : Type}

theorem isClear_of_build {wanted : List Var} {main : Fragment → Program σ Expr} {m m' : σ}
    {b b' : Builder} {out : Output}
    (h : (Program.build wanted main .pure).run m b = (.done (.ok out), m', b'))
    (hlacks : ∀ t ∈ out.texts, Lacks '\n' t) : out.IsClear := by
  have hreturns := returns_of_build h
  obtain ⟨-, uniforms, value, b₁, -, -, -, -, rfl, -⟩ := run_build_eq_ok h
  exact ⟨by simp, fun d hd => hreturns.lines_ne_nil hd, hlacks⟩

/-- The main block of a shader ends with the colour that its main body has answered. -/
theorem main_of_build {wanted : List Var} {main : Fragment → Program σ Expr} {m m' : σ}
    {b b' : Builder} {out : Output}
    (h : (Program.build wanted main .pure).run m b = (.done (.ok out), m', b')) :
    ∃ value b₁ before, (main ⟨out.uniforms⟩).run m (b.begun out.uniforms) = (.done value, m', b₁) ∧
      out.main.map (·.text) = before ++ ["gl_FragColor = vec4(" ++ value.code ++ ", 0.0, 1.0);"] := by
  obtain ⟨-, uniforms, value, b₁, -, hmain, -, -, rfl, -⟩ := run_build_eq_ok h
  have hext : (b.begun uniforms).Extends b₁ := by
    have := (main ⟨uniforms⟩).run_extends m (b.begun uniforms) rfl
    rwa [hmain] at this
  have huniforms : b₁.uniforms = uniforms := hext.uniforms
  refine ⟨value, b₁, b₁.lines.map (·.text), ?_, List.map_append⟩
  rw [huniforms]
  exact hmain

/-- **The text of a shader can be decoded**, if none of the texts in it has a line break. What stands
between its empty lines are the declarations, the functions, with one empty section if there is none,
and the main block. From these the uniforms, the functions and the lines of the main block are read, the
last of which is the colour that the main body has answered. So two shaders that read alike have the
same uniforms, functions and lines. -/
theorem source_decoded :
    (∀ {σ : Type} (wanted : List Var) (main : Fragment → Program σ Expr) (m m' : σ) (b b' : Builder)
      (out : Output), (Program.build wanted main .pure).run m b = (.done (.ok out), m', b') →
      (∀ t ∈ out.texts, Lacks '\n' t) →
      sourceSections out.source = String.intercalate "\n" (out.uniforms.map (·.declaration)) ::
        ((if out.blocks = [] then [""] else out.blocks) ++ [mainBlock (out.main.map (·.text))]) ∧
      decode? out.source = some ⟨out.uniforms, out.blocks, out.main.map (·.text)⟩ ∧
      ∃ value b₁ before,
        (main ⟨out.uniforms⟩).run m (b.begun out.uniforms) = (.done value, m', b₁) ∧
        out.main.map (·.text) = before ++ ["gl_FragColor = vec4(" ++ value.code ++ ", 0.0, 1.0);"]) ∧
    ∀ {σ₁ σ₂ : Type} (wanted₁ wanted₂ : List Var) (main₁ : Fragment → Program σ₁ Expr)
      (main₂ : Fragment → Program σ₂ Expr) (m₁ m₁' : σ₁) (m₂ m₂' : σ₂) (b₁ b₁' b₂ b₂' : Builder)
      (out₁ out₂ : Output),
      (Program.build wanted₁ main₁ .pure).run m₁ b₁ = (.done (.ok out₁), m₁', b₁') →
      (Program.build wanted₂ main₂ .pure).run m₂ b₂ = (.done (.ok out₂), m₂', b₂') →
      (∀ t ∈ out₁.texts, Lacks '\n' t) → (∀ t ∈ out₂.texts, Lacks '\n' t) →
      out₁.source = out₂.source → out₁.uniforms = out₂.uniforms ∧ out₁.blocks = out₂.blocks ∧
        out₁.main.map (·.text) = out₂.main.map (·.text) := by
  constructor
  · intro σ wanted main m m' b b' out h hlacks
    have hclear := isClear_of_build h hlacks
    refine ⟨?_, hclear.decode?_source, main_of_build h⟩
    rw [sourceSections, hclear.sectionsOf_source, List.map_map]
    exact List.map_id'' (fun _ => String.ofList_toList) _
  · intro σ₁ σ₂ _ _ _ _ _ _ _ _ _ _ _ _ out₁ out₂ h₁ h₂ hlacks₁ hlacks₂ hsource
    have hdecode := (isClear_of_build h₁ hlacks₁).decode?_source
    rw [hsource, (isClear_of_build h₂ hlacks₂).decode?_source, Option.some_inj, Decoded.mk.injEq]
      at hdecode
    exact ⟨hdecode.1.symm, hdecode.2.1.symm, hdecode.2.2.symm⟩

/-- A main body with a uniform and a function. -/
def doubling : Fragment → Program Unit Expr := fun f => do
  let twice ← function ⟨"twice", .float, [⟨"x", .float⟩]⟩ fun _ =>
    op (.arithmetic .mul ⟨"x", .float⟩ (.number (.ofNat 2)))
  let t ← ofExcept (f.uniform "u_time")
  op (.call twice [.expr t])

/-- The shader of that body. -/
def doubleShader : Output where
  uniforms := [⟨"u_time", .float⟩]
  functions := [⟨⟨"twice", .float, [⟨"x", .float⟩]⟩,
    [.declare 0 (.arithmetic .mul ⟨"x", .float⟩ (.number (.ofNat 2))), .result ⟨"v0", .float⟩]⟩]
  main := [.declare 1 (.call ⟨"twice", .float, [.float]⟩ [.expr ⟨"u_time", .float⟩]),
    .color ⟨"v1", .float⟩]

/-- A main body that gives the same lines as texts. -/
def doublingSpelled : Fragment → Program Unit Expr := fun _ => do
  let _ ← function ⟨"twice", .float, [⟨"x", .float⟩]⟩ fun _ => do
    line "float v0 = x * 2.0;"
    return ⟨"v0", .float⟩
  line "float v1 = twice(u_time);"
  return ⟨"v1", .float⟩

/-- The shader of that body. -/
def doubleShaderSpelled : Output where
  uniforms := [⟨"u_time", .float⟩]
  functions := [⟨⟨"twice", .float, [⟨"x", .float⟩]⟩,
    [.raw "float v0 = x * 2.0;", .result ⟨"v0", .float⟩]⟩]
  main := [.raw "float v1 = twice(u_time);", .color ⟨"v1", .float⟩]

/-- What the text of both shaders says. -/
theorem source_decoded_doubling :
    (∃ b₁ b₂, (Program.build [⟨"u_time", .float⟩] doubling .pure).run () (.new .perBuild) =
        (.done (.ok doubleShader), (), b₁) ∧
      (Program.build [⟨"u_time", .float⟩] doublingSpelled .pure).run () (.new .perBuild) =
        (.done (.ok doubleShaderSpelled), (), b₂)) ∧
    decode? doubleShader.source = some ⟨[⟨"u_time", .float⟩],
      ["float twice(float x) \x7b\n  float v0 = x * 2.0;\n  return v0;\n\x7d"],
      ["float v1 = twice(u_time);", "gl_FragColor = vec4(v1, 0.0, 1.0);"]⟩ ∧
    doubleShader.blocks = doubleShaderSpelled.blocks := by
  obtain ⟨b₁, h₁⟩ : ∃ b', (Program.build [⟨"u_time", .float⟩] doubling .pure).run ()
      (.new .perBuild) = (.done (.ok doubleShader), (), b') :=
    Outcome.exists_eq_of_answer? (by decide +kernel)
  obtain ⟨b₂, h₂⟩ : ∃ b', (Program.build [⟨"u_time", .float⟩] doublingSpelled .pure).run ()
      (.new .perBuild) = (.done (.ok doubleShaderSpelled), (), b') :=
    Outcome.exists_eq_of_answer? (by decide +kernel)
  have hlacks₁ : ∀ t ∈ doubleShader.texts, Lacks '\n' t := by decide +kernel
  have hlacks₂ : ∀ t ∈ doubleShaderSpelled.texts, Lacks '\n' t := by decide +kernel
  have hsource : doubleShader.source = doubleShaderSpelled.source := by decide +kernel
  have hparts : Decoded.mk doubleShader.uniforms doubleShader.blocks (doubleShader.main.map (·.text)) =
      ⟨[⟨"u_time", .float⟩],
        ["float twice(float x) \x7b\n  float v0 = x * 2.0;\n  return v0;\n\x7d"],
        ["float v1 = twice(u_time);", "gl_FragColor = vec4(v1, 0.0, 1.0);"]⟩ := by decide +kernel
  refine ⟨⟨b₁, b₂, h₁, h₂⟩, hparts ▸ (source_decoded.1 _ _ _ _ _ _ _ h₁ hlacks₁).2.1, ?_⟩
  exact (source_decoded.2 _ _ _ _ _ _ _ _ _ _ _ _ _ _ h₁ h₂ hlacks₁ hlacks₂ hsource).2.1

end Program

end Shader
