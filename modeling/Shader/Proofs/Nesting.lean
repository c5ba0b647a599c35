import Mathlib.Data.List.Chain
import Shader.Proofs.Deeds
import Shader.Proofs.Texts

/-!
# Braces are well nested

A conditional is written piece by piece, and between the pieces a caller's program runs, which may fail,
may be given up, or may leave the scope of a function open above the one it found. If the conditional
comes to its end in the scope it began in, its lines are complete there; in all other cases its lines are
dropped, or the build fails.

* `WellNested`: lines in which every conditional is complete; `IsNested`: texts whose braces match;
* `Builder.Adds`: what a run has added to the innermost scope, if no other was left open;
* `tidy_when`, `tidy_choose`, `tidy_define`, **`run_tidy`**: a run that leaves no conditional half
  written adds lines that are well nested, and so do the functions it defines;
* **`braces_nested`**: the blocks of a finished shader.
-/

namespace Shader

variable {σ α β : Type}

/-! ## Lines -/

/-- Lines in which every conditional is complete. -/
inductive WellNested : List Line → Prop
  | nil : WellNested []
  | plain {line : Line} (h : line.isPlain = true) : WellNested [line]
  | append {ls ls' : List Line} (h : WellNested ls) (h' : WellNested ls') : WellNested (ls ++ ls')
  | block {cond : String} {body : List Line} (h : WellNested body) :
    WellNested (.opening cond :: body ++ [.closing])
  | alternative {cond : String} {body other : List Line} (h : WellNested body)
    (h' : WellNested other) :
    WellNested ((.opening cond :: body ++ [.closing]) ++ (.otherwise :: other ++ [.closing]))

/-- The lines of a branch with the given head. -/
def IsBranch (head : Line) (ls : List Line) : Prop :=
  ∃ body, WellNested body ∧ ls = head :: body ++ [.closing]

/-- An alternative has the end of a branch before it. -/
def Continues (line next : Line) : Prop := next = .otherwise → line = .closing

theorem isChain_append {ls ls' : List Line} (h : ls.IsChain Continues) (h' : ls'.IsChain Continues)
    (hhead : ls'.head? ≠ some .otherwise) : (ls ++ ls').IsChain Continues :=
  List.isChain_append.2 ⟨h, h', fun _ _ _ hy he => absurd (he ▸ hy) hhead⟩

theorem isChain_branch {body : List Line} (head : Line) (h : body.IsChain Continues)
    (hhead : body.head? ≠ some .otherwise) : (head :: body ++ [Line.closing]).IsChain Continues :=
  isChain_append (isChain_append (.singleton head) h hhead) (.singleton _) (by simp)

theorem WellNested.isChain {ls : List Line} (h : WellNested ls) :
    ls.IsChain Continues ∧ ls.head? ≠ some .otherwise := by
  induction h with
  | nil => exact ⟨.nil, by simp⟩
  | @plain line h => exact ⟨.singleton _, by rintro ⟨⟩; cases h⟩
  | @append ls ls' _ _ ih ih' =>
    refine ⟨isChain_append ih.1 ih'.1 ih'.2, ?_⟩
    cases ls with
    | nil => exact ih'.2
    | cons line ls => exact ih.2
  | block _ ih => exact ⟨isChain_branch _ ih.1 ih.2, by simp⟩
  | @alternative cond _ _ _ _ ih ih' =>
    have hbody := isChain_branch (.opening cond) ih.1 ih.2
    have hother := isChain_branch .otherwise ih'.1 ih'.2
    refine ⟨List.isChain_append.2 ⟨hbody, hother, fun x hx _ _ _ => ?_⟩, by simp⟩
    rw [List.getLast?_concat] at hx
    exact (Option.mem_some.1 hx).symm

/-- **Every alternative comes directly after the end of a branch.** -/
theorem WellNested.closing_of_otherwise {before after : List Line}
    (h : WellNested (before ++ .otherwise :: after)) : ∃ front, before = front ++ [.closing] := by
  obtain ⟨hchain, hhead⟩ := h.isChain
  obtain rfl | ⟨front, line, rfl⟩ := List.eq_nil_or_concat before
  · exact absurd rfl hhead
  · have hlast := (List.isChain_append.1 hchain).2.2 line (by simp) .otherwise (by simp)
    exact ⟨front, by rw [hlast rfl, List.concat_eq_append]⟩

/-! ## What a run has added -/

namespace Builder

/-- From `b` to `b'` no scope of `b` was closed, and functions that came are well nested. If no scope is
open that was not open before, `P` holds of the lines that came to the innermost one. -/
structure Adds (P : List Line → Prop) (b b' : Builder) : Prop where
  depth_le : b.depth ≤ b'.depth
  functions : (∀ d ∈ b.functions, WellNested d.lines) → ∀ d ∈ b'.functions, WellNested d.lines
  lines : b'.depth = b.depth → ∃ more, b'.scopes = b.scopes.modifyHead (· ++ more) ∧ P more

namespace Adds

variable {P Q R : List Line → Prop} {a b c : Builder}

theorem refl (b : Builder) : b.Adds WellNested b where
  depth_le := Nat.le_refl _
  functions := id
  lines _ := ⟨[], by cases b.scopes <;> simp, .nil⟩

theorem imp (h : a.Adds P b) (hPQ : ∀ ls, P ls → Q ls) : a.Adds Q b where
  depth_le := h.depth_le
  functions := h.functions
  lines hd := by
    obtain ⟨more, hs, hP⟩ := h.lines hd
    exact ⟨more, hs, hPQ more hP⟩

theorem trans (h : a.Adds P b) (h' : b.Adds Q c) (hR : ∀ ls ls', P ls → Q ls' → R (ls ++ ls')) :
    a.Adds R c where
  depth_le := Nat.le_trans h.depth_le h'.depth_le
  functions := h'.functions ∘ h.functions
  lines hd := by
    have hle := h.depth_le
    have hle' := h'.depth_le
    obtain ⟨more, hs, hP⟩ := h.lines (by omega)
    obtain ⟨more', hs', hQ⟩ := h'.lines (by omega)
    refine ⟨more ++ more', ?_, hR more more' hP hQ⟩
    rw [hs', hs]
    cases a.scopes <;> simp

/-- The scopes of an earlier moment. -/
theorem of_scopes_eq (hs : b.scopes = a.scopes)
    (hf : (∀ d ∈ a.functions, WellNested d.lines) → ∀ d ∈ b.functions, WellNested d.lines) :
    a.Adds WellNested b where
  depth_le := by simp [depth, hs]
  functions := hf
  lines _ := ⟨[], by rw [hs]; cases a.scopes <;> simp, .nil⟩

end Adds

theorem adds_written (b : Builder) (line : Line) : b.Adds (· = [line]) (b.written line) where
  depth_le := by simp
  functions := id
  lines _ := ⟨[line], rfl, rfl⟩

theorem adds_declared (b : Builder) (op : Operation) : b.Adds WellNested (b.declared op) where
  depth_le := Nat.le_of_eq (depth_written _ _).symm
  functions := id
  lines _ := ⟨[.declare b.next op], rfl, .plain rfl⟩

end Builder

namespace Program

/-- Unless a conditional is left, a run adds lines that are well nested. -/
def Tidy (p : Program σ α) : Prop :=
  ∀ (m : σ) (b : Builder), b.building = true → .leftBranch ∉ p.deeds m b →
    b.Adds WellNested (p.run m b).2.2

theorem tidy_bind {p : Program σ α} {g : α → Program σ β} (hp : Tidy p) (hg : ∀ a, Tidy (g a)) :
    Tidy (p.bind g) := by
  intro m b hb hcalm
  rw [deeds_bind, List.mem_append, not_or] at hcalm
  have h := hp m b hb hcalm.1
  have hbuild := (p.run_extends m b hb).building.trans hb
  rw [run_bind]
  rcases hrun : p.run m b with ⟨a | f | _, m', b'⟩
  all_goals rw [hrun] at h hbuild hcalm
  · exact h.trans (hg a m' b' hbuild hcalm.2) fun _ _ => .append
  · exact h
  · exact h

theorem tidy_perform (op : Operation) : Tidy (Program.perform op .pure : Program σ _) := by
  intro m b _ _
  simp only [run]
  cases h : b.perform op with
  | error f => exact .refl b
  | ok r =>
    obtain ⟨e, b'⟩ := r
    obtain ⟨-, -, -, rfl⟩ := Builder.perform_eq_ok_iff.1 h
    exact b.adds_declared op

theorem tidy_emit (line : String) : Tidy (Program.emit line .pure : Program σ _) := by
  intro m b _ _
  simp only [run]
  cases h : b.emit (.raw line) with
  | error f => exact .refl b
  | ok b' =>
    obtain ⟨-, rfl⟩ := Builder.emit_eq_ok_iff.1 h
    exact (b.adds_written (.raw line)).imp fun ls hls => hls ▸ .plain rfl

/-- A branch has the functions that its body has left. -/
theorem functions_branch {head : Line} {body : σ → Builder → Outcome Unit × σ × Builder} (m : σ)
    {b : Builder} (hw : b.isWriting = true) :
    (branch head body m b).2.2.functions = (body m (b.written head)).2.2.functions := by
  rw [branch_of_isWriting hw]
  rcases body m (b.written head) with ⟨u | f | _, m', b'⟩
  · cases hw' : b'.isWriting with
    | true =>
      simp only [Outcome.andThen, Builder.emit_of_isWriting hw']
      rfl
    | false => simp only [Outcome.andThen, Builder.emit_of_not_isWriting hw']
  · rfl
  · rfl

/-- A branch adds its head, what its body adds, and its end. -/
theorem adds_branch {body : Program σ Unit} (hbody : Tidy body) (head : Line) {m m' : σ}
    {b b' : Builder} (hw : b.isWriting = true) (hcalm : .leftBranch ∉ body.deeds m (b.written head))
    (h : branch head body.run m b = (.done (), m', b')) : b.Adds (IsBranch head) b' := by
  obtain ⟨b₁, hrun, -, rfl⟩ := branch_eq_done hw h
  have hbuild : (b.written head).building = true := (Builder.isWriting_iff.1 hw).1
  have hadds := hbody m (b.written head) hbuild hcalm
  rw [hrun] at hadds
  refine ((b.adds_written head).trans (R := fun ls => ∃ more, WellNested more ∧ ls = head :: more)
    hadds ?_).trans (b₁.adds_written .closing) ?_
  · rintro _ more rfl hmore
    exact ⟨more, hmore, rfl⟩
  · rintro _ _ ⟨more, hmore, rfl⟩ rfl
    exact ⟨more, hmore, rfl⟩

/-- The functions of a branch are well nested, however it ends. -/
theorem wellNested_functions_branch {body : Program σ Unit} (hbody : Tidy body) (head : Line) {m : σ}
    {b : Builder} (hw : b.isWriting = true) (hcalm : .leftBranch ∉ body.deeds m (b.written head))
    (hf : ∀ d ∈ b.functions, WellNested d.lines) :
    ∀ d ∈ (branch head body.run m b).2.2.functions, WellNested d.lines := by
  have hbuild : (b.written head).building = true := (Builder.isWriting_iff.1 hw).1
  rw [functions_branch m hw]
  exact (hbody m (b.written head) hbuild hcalm).functions hf

/-- A conditional that failed adds nothing. -/
theorem adds_rollback {b b' : Builder} (hext : b.Extends b')
    (hf : (∀ d ∈ b.functions, WellNested d.lines) → ∀ d ∈ b'.functions, WellNested d.lines) :
    b.Adds WellNested (b'.rollback b.here) := by
  obtain ⟨above, more, hs⟩ := hext.scopes
  exact .of_scopes_eq (Builder.scopes_rollback_here hs) hf

theorem tidy_when {body : Program σ Unit} (hbody : Tidy body) (cond : String) :
    Tidy (Program.when cond body .pure) := by
  intro m b hb hcalm
  cases hw : b.isWriting with
  | false => exact run_when_of_not_isWriting hw ▸ .refl b
  | true =>
    simp only [deeds, hw, if_true, List.mem_append, not_or] at hcalm
    rw [run_when_of_isWriting hw] at hcalm ⊢
    have hext := carries_branch body.run_extends (.opening cond) m b hb
    have hf := wellNested_functions_branch hbody (.opening cond) hw hcalm.1.1
    rcases h : branch (.opening cond) body.run m b with ⟨o | f | _, m', b'⟩
    · refine (adds_branch hbody _ hw hcalm.1.1 h).imp fun ls hls => ?_
      obtain ⟨more, hmore, rfl⟩ := hls
      exact .block hmore
    · rw [h] at hext hf
      exact adds_rollback hext hf
    · rw [h] at hcalm
      exact absurd List.mem_cons_self hcalm.1.2

theorem tidy_choose {body other : Program σ Unit} (hbody : Tidy body) (hother : Tidy other)
    (cond : String) : Tidy (Program.choose cond body other .pure) := by
  intro m b hb hcalm
  cases hw : b.isWriting with
  | false => exact run_choose_of_not_isWriting hw ▸ .refl b
  | true =>
    simp only [deeds, hw, if_true, List.mem_append, not_or] at hcalm
    rw [run_choose_of_isWriting hw] at hcalm ⊢
    have hext := carries_branch body.run_extends (.opening cond) m b hb
    have hf := wellNested_functions_branch hbody (.opening cond) hw hcalm.1.1.1
    rcases h : branch (.opening cond) body.run m b with ⟨o | f | _, m₁, b₁⟩
    all_goals rw [h] at hext hf hcalm
    · have hadds := adds_branch hbody _ hw hcalm.1.1.1 h
      obtain ⟨b₀, -, hw₀, rfl⟩ := branch_eq_done hw h
      have hw₁ := Builder.isWriting_written hw₀ .closing
      have hext₁ := hext.trans
        (carries_branch other.run_extends .otherwise m₁ _ (Builder.isWriting_iff.1 hw₁).1)
      have hf₁ := wellNested_functions_branch hother .otherwise hw₁ hcalm.1.1.2
      have hcalm₂ := hcalm.1.2
      dsimp only [Outcome.andThen] at hcalm₂ ⊢
      rcases h₁ : branch .otherwise other.run m₁ (b₀.written .closing) with ⟨o | f | _, m₂, b₂⟩
      all_goals rw [h₁] at hext₁ hf₁ hcalm₂
      · refine hadds.trans (adds_branch hother .otherwise hw₁ hcalm.1.1.2 h₁) ?_
        rintro _ _ ⟨more, hmore, rfl⟩ ⟨more', hmore', rfl⟩
        exact .alternative hmore hmore'
      · exact adds_rollback hext₁ (hf₁ ∘ hf)
      · exact absurd List.mem_cons_self hcalm₂
    · exact adds_rollback hext hf
    · exact absurd List.mem_cons_self hcalm.1.2

/-- The end of a function adds nothing to the scope it was defined in. The function is well nested if
the lines of its scope are, in case it is kept. -/
theorem adds_closeFunction {b b' : Builder} (hext : b.opened.Extends b')
    (hf : (∀ d ∈ b.functions, WellNested d.lines) → ∀ d ∈ b'.functions, WellNested d.lines)
    (s : Signature) (ended : Except Failure Unit)
    (hlines : ended = .ok () → b'.depth = b.depth + 1 → WellNested b'.lines) :
    b.Adds WellNested (b'.closeFunction s (b.depth + 1) ended).2 := by
  refine .of_scopes_eq (Builder.scopes_closeFunction hext s ended) fun hb d hd => ?_
  obtain ⟨hended, hdepth, hc⟩ | ⟨f, hc⟩ := b'.closeFunction_cases s (b.depth + 1) ended
  · rw [hc] at hd
    obtain hd | hd := List.mem_append.1 hd
    · exact hf hb d hd
    · obtain rfl := List.mem_singleton.1 hd
      exact hlines hended hdepth
  · rw [hc, Builder.closeScope_fields] at hd
    exact hf hb d hd

/-- What becomes of a function. If its scope is the innermost at the end, its lines are well nested;
otherwise it is dropped. -/
theorem tidy_define {body : List Expr → Program σ Expr} (hbody : ∀ args, Tidy (body args))
    (s : Signature) : Tidy (Program.define s body .pure) := by
  intro m b hb hcalm
  cases hw : b.isWriting with
  | false => exact run_define_of_not_isWriting hw ▸ .refl b
  | true =>
    by_cases hd : b.depth < maxDepth
    case neg => exact run_define_of_le hw (Nat.le_of_not_lt hd) ▸ .refl b
    simp only [deeds, hw, hd, decide_true, Bool.true_and, if_true, List.mem_append, not_or] at hcalm
    have hadds := hbody _ m b.opened hb hcalm.1
    have hext : b.opened.Extends _ := (body (s.params.map (·.expr))).run_extends m b.opened hb
    rw [run_define_of_isWriting hw hd]
    generalize (body (s.params.map (·.expr))).run m b.opened = r at hadds hext
    obtain ⟨value | f | _, m₁, b₁⟩ := r
    · obtain ⟨f, hr⟩ | ⟨hw₁, -, hr⟩ := b₁.returnValue_cases s value
      all_goals simp only [Outcome.close, hr]
      · exact adds_closeFunction hext hadds.functions s (.error f) fun h => by cases h
      · have hext' := hext.trans (b₁.extends_written (.result value))
        refine adds_closeFunction hext' hadds.functions s (.ok ()) fun _ hdepth => ?_
        rw [Builder.depth_written] at hdepth
        obtain ⟨more, hs, hmore⟩ := hadds.lines hdepth
        have hscopes : b₁.scopes = more :: b.scopes := hs
        rw [Builder.lines_written hw₁, Builder.lines, hscopes]
        exact hmore.append (.plain rfl)
    · exact adds_closeFunction hext hadds.functions s (.error f) fun h => by cases h
    · -- the scope of the function is still open
      have hle : b.depth + 1 ≤ b₁.depth := hadds.depth_le
      exact ⟨Nat.le_of_succ_le hle, hadds.functions, fun h => absurd h (Nat.ne_of_gt hle)⟩

theorem tidy_build (wanted : List Var) (main : Fragment → Program σ Expr) :
    Tidy (Program.build wanted main .pure) := by
  intro m b hb _
  exact run_build_of_building hb ▸ .refl b

theorem tidy_fresh (policy : CounterPolicy) (body : Program σ β) :
    Tidy (Program.fresh policy body .pure) := by
  intro m b _ _
  simp only [run]
  split <;> exact .refl b

/-- **A run that leaves no conditional half written is tidy**, however it ends. -/
theorem run_tidy (p : Program σ α) : Tidy p := by
  induction p with
  | pure a => exact fun _ b _ _ => .refl b
  | fail f => exact fun _ b _ _ => .refl b
  | abort => exact fun _ b _ _ => .refl b
  | own act k ih => exact fun m b hb => ih _ _ b hb
  | look k ih => exact fun m b hb => ih _ m b hb
  | perform op k ih => exact (tidy_bind (tidy_perform op) ih :)
  | emit line k ih => exact (tidy_bind (tidy_emit line) ih :)
  | define s body k ihb ih => exact (tidy_bind (tidy_define ihb s) ih :)
  | when cond body k ihb ih => exact (tidy_bind (tidy_when ihb cond) ih :)
  | choose cond body other k ihb iho ih => exact (tidy_bind (tidy_choose ihb iho cond) ih :)
  | build wanted main k _ ih => exact (tidy_bind (tidy_build wanted main) ih :)
  | fresh policy body k _ ih => exact (tidy_bind (tidy_fresh policy body) ih :)
  | contain body k ihb ih =>
    intro m b hb hcalm
    rw [deeds, List.mem_append, not_or] at hcalm
    have hbuild := (body.run_extends m b hb).building.trans hb
    have h := ih (body.run m b).1 (body.run m b).2.1 (body.run m b).2.2 hbuild hcalm.2
    exact (ihb m b hb hcalm.1).trans h fun _ _ => .append

end Program

/-! ## Texts -/

/-- The braces of a text match: no beginning of it closes more than it opens, and in the end all is
closed. -/
def IsNested (cs : List Char) : Prop :=
  (∀ front, front <+: cs → front.count '\x7d' ≤ front.count '\x7b') ∧
    cs.count '\x7d' = cs.count '\x7b'

namespace IsNested

variable {cs cs' : List Char}

theorem of_not_mem (ho : '\x7b' ∉ cs) (hc : '\x7d' ∉ cs) : IsNested cs := by
  have hcount : cs.count '\x7d' = 0 := List.count_eq_zero.2 hc
  refine ⟨fun front hfront => ?_, by rw [hcount, List.count_eq_zero.2 ho]⟩
  have := hfront.count_le '\x7d'
  omega

theorem append (h : IsNested cs) (h' : IsNested cs') : IsNested (cs ++ cs') := by
  refine ⟨fun front hfront => ?_, by simp only [List.count_append, h.2, h'.2]⟩
  obtain ⟨rest, hrest⟩ := hfront
  obtain ⟨more, rfl, -⟩ | ⟨more, rfl, hmore⟩ := List.append_eq_append_iff.1 hrest
  · exact h.1 front (List.prefix_append _ _)
  · have := h'.1 more ⟨rest, hmore.symm⟩
    simp only [List.count_append, h.2]
    omega

/-- Braces around a text whose braces match. -/
theorem wrap (h : IsNested cs) : IsNested ('\x7b' :: (cs ++ ['\x7d'])) := by
  constructor
  · intro front hfront
    obtain rfl | ⟨more, rfl, hmore⟩ := List.prefix_cons_iff.1 hfront
    · exact Nat.le_refl _
    · obtain rfl | hmore := List.prefix_concat_iff.1 hmore
      · simp [List.count_append, h.2]
      · have := h.1 more hmore
        simp only [List.count_cons, beq_iff_eq, Char.reduceEq, if_true, if_false]
        omega
  · simp [List.count_append, h.2]

end IsNested

/-- The text of indented lines. -/
def indented (ls : List Line) : List Char :=
  (ls.map (·.text)).flatMap fun l => '\n' :: ' ' :: ' ' :: l.toList

theorem indented_append (ls ls' : List Line) : indented (ls ++ ls') = indented ls ++ indented ls' := by
  simp [indented]

/-- Neither of the two braces occurs in a text. -/
def LacksBraces (s : String) : Prop := Lacks '\x7b' s ∧ Lacks '\x7d' s

/-- A branch is a pair of braces around its body. -/
theorem isNested_branch {head : Line} {body : List Line} (before : String)
    (hhead : head.text = before ++ "\x7b") (hbefore : LacksBraces before)
    (hbody : IsNested (indented body)) : IsNested (indented (head :: body ++ [.closing])) := by
  have hmargin : IsNested ['\n', ' ', ' '] := .of_not_mem (by decide) (by decide)
  have hfront : IsNested before.toList := .of_not_mem hbefore.1 hbefore.2
  have htext : indented (head :: body ++ [.closing]) = ['\n', ' ', ' '] ++ before.toList ++
      '\x7b' :: ((indented body ++ ['\n', ' ', ' ']) ++ ['\x7d']) := by
    have hclosing : Line.closing.text = "\x7d" := rfl
    simp [indented, hhead, hclosing]
  rw [htext]
  have hblock := (hbody.append hmargin).wrap
  exact (hmargin.append hfront).append hblock

theorem text_opening (cond : String) :
    (Line.opening cond).text = "if(" ++ cond ++ ")" ++ "\x7b" := by
  rw [String.append_assoc]
  rfl

/-- **Lines that are well nested have braces that match**, if their texts have none. -/
theorem WellNested.isNested {ls : List Line} (h : WellNested ls)
    (hfree : ∀ line ∈ ls, ∀ t ∈ line.texts, LacksBraces t) : IsNested (indented ls) := by
  have hopening {cond : String} (h : LacksBraces cond) : LacksBraces ("if(" ++ cond ++ ")") :=
    ⟨(Lacks.append (by decide) h.1).append (by decide),
      (Lacks.append (by decide) h.2).append (by decide)⟩
  induction h with
  | nil => exact .of_not_mem (by decide) (by decide)
  | @plain line h =>
    have ht := hfree line List.mem_cons_self
    have ho : Lacks '\x7b' line.text := lacks_text rfl (.inl h) fun t hmem => (ht t hmem).1
    have hc : Lacks '\x7d' line.text := lacks_text rfl (.inl h) fun t hmem => (ht t hmem).2
    have hline : indented [line] = ['\n', ' ', ' '] ++ line.text.toList := by simp [indented]
    rw [hline]
    exact .append (.of_not_mem (by decide) (by decide)) (.of_not_mem ho hc)
  | append _ _ ih ih' =>
    obtain ⟨hf, hf'⟩ := List.forall_mem_append.1 hfree
    rw [indented_append]
    exact (ih hf).append (ih' hf')
  | @block cond body _ ih =>
    obtain ⟨hcond, hbody⟩ := List.forall_mem_cons.1 (List.forall_mem_append.1 hfree).1
    have hfront := hopening (hcond cond List.mem_cons_self)
    exact isNested_branch _ (text_opening cond) hfront (ih hbody)
  | @alternative cond body other _ _ ih ih' =>
    obtain ⟨hfirst, hsecond⟩ := List.forall_mem_append.1 hfree
    obtain ⟨hcond, hbody⟩ := List.forall_mem_cons.1 (List.forall_mem_append.1 hfirst).1
    obtain ⟨-, hother⟩ := List.forall_mem_cons.1 (List.forall_mem_append.1 hsecond).1
    have hfront := hopening (hcond cond List.mem_cons_self)
    have hmiddle : LacksBraces "else" := ⟨by decide, by decide⟩
    rw [indented_append]
    exact (isNested_branch _ (text_opening cond) hfront (ih hbody)).append
      (isNested_branch "else" rfl hmiddle (ih' hother))

/-- A block whose lines have braces that match, and whose head has none. -/
theorem isNested_blockText {head : String} {ls : List Line} (hhead : LacksBraces head)
    (h : IsNested (indented ls)) : IsNested (blockText head (ls.map (·.text))) := by
  have hlast : IsNested ['\n'] := .of_not_mem (by decide) (by decide)
  have hbody := (h.append hlast).wrap
  have htext : blockText head (ls.map (·.text)) =
      head.toList ++ '\x7b' :: (indented ls ++ ['\n'] ++ ['\x7d']) := by
    simp [blockText, indented]
  rw [htext]
  exact (IsNested.of_not_mem hhead.1 hhead.2).append hbody

theorem lacksBraces_head {s : Signature} (h : ∀ t ∈ s.texts, LacksBraces t) : LacksBraces s.head :=
  ⟨lacks_head rfl fun t ht => (h t ht).1, lacks_head rfl fun t ht => (h t ht).2⟩

/-- The head of an alternative is the only line that reads like one, if the texts have no braces. -/
theorem eq_otherwise_of_text {line : Line} (hfree : ∀ t ∈ line.texts, LacksBraces t)
    (h : line.text = "else\x7b") : line = .otherwise := by
  have hplain (hl : line.isPlain = true) : line = .otherwise := by
    have hlacks : Lacks '\x7b' line.text := lacks_text rfl (.inl hl) fun t ht => (hfree t ht).1
    rw [h] at hlacks
    exact absurd hlacks (by decide)
  cases line with
  | otherwise => rfl
  | opening cond =>
    have hfirst := congrArg (fun s : String => s.toList.head?) h
    rw [text_opening] at hfirst
    simp at hfirst
  | closing => exact absurd h (by decide)
  | _ => exact hplain rfl

/-- Where the text of a line begins an alternative, the text before it is the end of a branch. -/
theorem WellNested.closing_of_text {ls : List Line} (h : WellNested ls)
    (hfree : ∀ line ∈ ls, ∀ t ∈ line.texts, LacksBraces t) {before after : List String}
    (hsplit : ls.map (·.text) = before ++ "else\x7b" :: after) :
    ∃ front, before = front ++ ["\x7d"] := by
  obtain ⟨front, rest, rfl, rfl, hrest⟩ := List.map_eq_append_iff.1 hsplit
  obtain ⟨line, rest, rfl, hline, -⟩ := List.map_eq_cons_iff.1 hrest
  obtain rfl := eq_otherwise_of_text (hfree line (by simp)) hline
  obtain ⟨front, rfl⟩ := h.closing_of_otherwise
  exact ⟨front.map (·.text), List.map_append⟩

namespace Program

/-- **Braces are well nested.** If no conditional of a build was left because a branch was abandoned,
and no brace occurs in the texts of its shader, the braces of the main block and of every function
match: no beginning of the block closes more than it opens, and in the end all is closed. And every line
that begins an alternative comes directly after the end of a branch. -/
theorem braces_nested {wanted : List Var} {main : Fragment → Program σ Expr} {m m' : σ}
    {b b' : Builder} {out : Output}
    (h : (Program.build wanted main .pure).run m b = (.done (.ok out), m', b'))
    (hcalm : .leftBranch ∉ (Program.build wanted main .pure).deeds m b)
    (hfree : ∀ t ∈ out.texts, LacksBraces t) :
    IsNested (mainBlock (out.main.map (·.text))).toList ∧
    (∀ block ∈ out.blocks, IsNested block.toList) ∧
    ∀ ls ∈ out.main :: out.functions.map (·.lines), ∀ before after,
      ls.map (·.text) = before ++ "else\x7b" :: after → ∃ front, before = front ++ ["\x7d"] := by
  have hreturns := returns_of_build h
  obtain ⟨hb, uniforms, value, b₁, hu, hmain, hw, hd, rfl, -⟩ := run_build_eq_ok h
  rw [deeds_build hb hu] at hcalm
  have hadds := (main ⟨uniforms⟩).run_tidy m (b.begun uniforms) rfl hcalm
  rw [hmain] at hadds
  have hfunctions : ∀ d ∈ b₁.functions, WellNested d.lines :=
    hadds.functions fun d hd => absurd hd List.not_mem_nil
  have hlines : WellNested (b₁.lines ++ [.color value]) := by
    obtain ⟨more, hs, hmore⟩ := hadds.lines hd
    replace hs : b₁.scopes = [more] := hs
    rw [Builder.lines, hs]
    exact hmore.append (.plain rfl)
  obtain ⟨hfree, hfreeMain⟩ := List.forall_mem_append.1 hfree
  obtain ⟨-, hfreeFunctions⟩ := List.forall_mem_append.1 hfree
  rw [List.forall_mem_flatMap] at hfreeMain hfreeFunctions
  have hfreeLines : ∀ d ∈ b₁.functions, ∀ line ∈ d.lines, ∀ t ∈ line.texts, LacksBraces t :=
    fun d hd => List.forall_mem_flatMap.1 (List.forall_mem_append.1 (hfreeFunctions d hd)).2
  refine ⟨?_, fun block hblock => ?_, List.forall_mem_cons.2 ⟨?_, fun ls hls => ?_⟩⟩
  · have hhead : LacksBraces "void main()" := ⟨by decide, by decide⟩
    rw [toList_mainBlock (by simp)]
    exact isNested_blockText hhead (hlines.isNested hfreeMain)
  · obtain ⟨d, hd, rfl⟩ := List.mem_map.1 hblock
    have hhead := lacksBraces_head (List.forall_mem_append.1 (hfreeFunctions d hd)).1
    rw [toList_text (hreturns.lines_ne_nil hd)]
    exact isNested_blockText hhead ((hfunctions d hd).isNested (hfreeLines d hd))
  · exact fun _ _ => hlines.closing_of_text hfreeMain
  · obtain ⟨d, hd, rfl⟩ := List.mem_map.1 hls
    exact fun _ _ => (hfunctions d hd).closing_of_text (hfreeLines d hd)

/-- A main body with a conditional that fails after a function was abandoned in it, and then another
conditional. -/
def choosing : Fragment → Program Unit Expr := fun _ => do
  let abandoned : Program Unit Callee := function ⟨"f", .float, []⟩ fun _ => .abort
  let _ ← (ifBlock "x > 1.0" (.contain abandoned fun _ => .fail (.ofMisuse .abandoned))).attempt
  ifElse "x > 0.0" (line "y = x;") (line "y = 0.0;")
  return ⟨"y", .float⟩

/-- The shader of that body. -/
def choiceShader : Output where
  uniforms := []
  functions := []
  main := [.opening "x > 0.0", .raw "y = x;", .closing, .otherwise, .raw "y = 0.0;", .closing,
    .color ⟨"y", .float⟩]

/-- The first conditional has left no trace, and the braces of the other match. -/
theorem braces_nested_choice :
    (∃ b', (Program.build [] choosing .pure).run () (.new .perBuild) =
      (.done (.ok choiceShader), (), b')) ∧
    .leftBranch ∉ (Program.build [] choosing .pure).deeds () (.new .perBuild) ∧
    IsNested (mainBlock (choiceShader.main.map (·.text))).toList := by
  obtain ⟨b', h⟩ : ∃ b', (Program.build [] choosing .pure).run () (.new .perBuild) =
      (.done (.ok choiceShader), (), b') := Outcome.exists_eq_of_answer? (by decide +kernel)
  have hcalm : .leftBranch ∉ (Program.build [] choosing .pure).deeds () (.new .perBuild) := by
    decide +kernel
  have hfree : ∀ t ∈ choiceShader.texts, LacksBraces t := by
    simp only [LacksBraces]
    decide +kernel
  exact ⟨⟨b', h⟩, hcalm, (braces_nested h hcalm hfree).1⟩

end Program

end Shader
