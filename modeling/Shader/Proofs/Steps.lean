import Mathlib.Logic.Relation
import Shader.Proofs.Frame

/-!
# The steps of a builder

All that ever happens to a builder happens in seven kinds of steps. What each of them keeps is kept
by every run, so an invariant of builders needs one short case for each kind.

* `Line.temp?`: the temporary that a line declares;
* `Builder.Step`: the steps; `Builder.Reaches`: one after the other;
* **`run_reaches`**: every run of every program on every builder goes by steps.
-/

namespace Shader

open Relation

variable {σ α β : Type}

/-- The temporary that a line declares. -/
def Line.temp? : Line → Option Nat
  | declare n _ => some n
  | _ => none

namespace Builder

/-- What happens to a builder at once. -/
inductive Step : Builder → Builder → Prop
  /-- A line is written that declares nothing. -/
  | write {b : Builder} {line : Line} (hw : b.isWriting = true) (hl : line.temp? = none) :
    Step b (b.written line)
  /-- The next temporary is declared. -/
  | declare {b : Builder} {op : Operation} (hw : b.isWriting = true) (hop : op.check = .ok ()) :
    Step b (b.declared op)
  /-- A scope is opened for a function. -/
  | enter {b : Builder} (hw : b.isWriting = true) (hd : b.depth < maxDepth) : Step b b.opened
  /-- The innermost scope becomes a function. -/
  | keep {b : Builder} {s : Signature} {lines : List Line} {value : Expr}
    {outer : List (List Line)} (hb : b.building = true) (ho : outer ≠ [])
    (hs : b.scopes = (lines ++ [Line.result value]) :: outer) (hv : value.ty = s.result) :
    Step b ({ b with scopes := outer }.addFunction ⟨s, lines ++ [Line.result value]⟩)
  /-- Scopes and lines are dropped, the latest first, but never all scopes. -/
  | drop {b : Builder} {above lower : List (List Line)} {live more : List Line}
    (hb : b.building = true) (hs : b.scopes = above ++ (live ++ more) :: lower) :
    Step b { b with scopes := live :: lower }
  /-- A build is accepted. -/
  | start {b : Builder} {wanted uniforms : List Var} (hb : b.building = false)
    (hu : collectUniforms wanted = .ok uniforms) : Step b (b.begun uniforms)
  /-- A build comes to its end. -/
  | settle {b : Builder} {r : Except Failure Output} (hb : b.building = true) :
    Step b (b.settle r)

/-- What a builder can become, step by step. -/
def Reaches : Builder → Builder → Prop := ReflTransGen Step

/-- What every step keeps is kept all the way. -/
theorem Reaches.keeps {P : Builder → Prop} (hP : ∀ {b b'}, Step b b' → P b → P b') {b b' : Builder}
    (h : b.Reaches b') (hb : P b) : P b' := by
  induction h with
  | refl => exact hb
  | tail _ hs ih => exact hP hs ih

theorem reaches_emit {b b' : Builder} {line : Line} (hl : line.temp? = none)
    (h : b.emit line = .ok b') : b.Reaches b' := by
  obtain ⟨hw, rfl⟩ := emit_eq_ok_iff.1 h
  exact .single (.write hw hl)

theorem reaches_perform {b b' : Builder} {op : Operation} {e : Expr}
    (h : b.perform op = .ok (e, b')) : b.Reaches b' := by
  obtain ⟨hop, hw, -, rfl⟩ := perform_eq_ok_iff.1 h
  exact .single (.declare hw hop)

/-- To give back the scopes of an earlier moment is to drop what came since. -/
theorem reaches_of_scopes_eq {b b' b'' : Builder} (hw : b.isWriting = true) (h : b.Extends b')
    (hb : b'' = { b' with scopes := b.scopes }) : b'.Reaches b'' := by
  obtain ⟨hbuild, hne⟩ := isWriting_iff.1 hw
  obtain ⟨live, lower, hs⟩ := List.exists_cons_of_ne_nil hne
  obtain ⟨above, more, hs'⟩ := h.scopes
  rw [hs] at hs' hb
  rw [hb]
  exact .single (.drop (h.building.trans hbuild) hs')

theorem reaches_rollback {b b' : Builder} (hw : b.isWriting = true) (h : b.Extends b') :
    b'.Reaches (b'.rollback b.here) := by
  obtain ⟨above, more, hs⟩ := h.scopes
  exact reaches_of_scopes_eq hw h (by rw [← scopes_rollback_here hs]; rfl)

theorem reaches_closeFunction_error {b b' : Builder} (hw : b.isWriting = true)
    (h : b.opened.Extends b') (s : Signature) (f : Failure) :
    b'.Reaches (b'.closeFunction s (b.depth + 1) (.error f)).2 := by
  refine reaches_of_scopes_eq hw h.of_opened ?_
  rw [← scopes_closeFunction h s (.error f)]
  exact closeScope_fields b' (b.depth + 1)

/-- The end of a function whose body has answered: its result is written, and the scope kept; or
the scope is dropped. -/
theorem reaches_closeFunction_returnValue {b b' : Builder} (hw : b.isWriting = true)
    (h : b.opened.Extends b') (s : Signature) (value : Expr) :
    b'.Reaches ((b'.returnValue s value).2.closeFunction s (b.depth + 1)
      (b'.returnValue s value).1).2 := by
  obtain ⟨f, hr⟩ | ⟨hw', hv, hr⟩ := b'.returnValue_cases s value
  · rw [hr]
    exact reaches_closeFunction_error hw h s f
  rw [hr]
  have hwrite : b'.Reaches (b'.written (.result value)) := .single (.write hw' rfl)
  refine hwrite.trans ?_
  have h' := h.trans (b'.extends_written (.result value))
  have hs' := scopes_closeFunction h' s (.ok ())
  obtain ⟨-, hd, hc⟩ | ⟨f, hc⟩ := closeFunction_cases (b'.written (.result value)) s (b.depth + 1)
    (.ok ())
  · rw [hc] at hs' ⊢
    obtain ⟨lines, outer, hs⟩ := List.exists_cons_of_ne_nil (isWriting_iff.1 hw').2
    have hsw : (b'.written (.result value)).scopes = (lines ++ [Line.result value]) :: b.scopes := by
      rw [← hs']
      simp [written, append, report, addFunction, hs]
    have hl : (b'.written (.result value)).lines = lines ++ [.result value] := by
      simp [Builder.lines, hsw]
    rw [hl]
    have ht : (b'.written (.result value)).scopes.tail = b.scopes := by rw [hsw]; rfl
    rw [ht]
    have hkeep : Step (b'.written (.result value)) _ :=
      .keep (s := s) (isWriting_iff.1 hw').1 (isWriting_iff.1 hw).2 hsw hv
    exact .single hkeep
  · have hfail := reaches_closeFunction_error hw h' s f
    rw [hc]
    exact hfail

end Builder

/-! ## Runs -/

theorem Outcome.reaches_andThen {b : Builder} {r : Outcome α × σ × Builder}
    {g : α → σ → Builder → Outcome β × σ × Builder} (h : b.Reaches r.2.2)
    (hg : ∀ a m, r.2.2.Reaches (g a m r.2.2).2.2) : b.Reaches (Outcome.andThen r g).2.2 := by
  obtain ⟨o | f | _, m, b'⟩ := r
  · exact h.trans (hg o m)
  · exact h
  · exact h

namespace Program

/-- What goes by steps on every builder. -/
def Steps (act : σ → Builder → Outcome α × σ × Builder) : Prop :=
  ∀ (m : σ) (b : Builder), b.Reaches (act m b).2.2

theorem steps_andThen {call : σ → Builder → Outcome α × σ × Builder}
    {k : α → σ → Builder → Outcome β × σ × Builder} (hcall : Steps call) (hk : ∀ a, Steps (k a)) :
    Steps fun m b => Outcome.andThen (call m b) k :=
  fun m b => Outcome.reaches_andThen (hcall m b) fun a m' => hk a m' _

theorem steps_branch {body : σ → Builder → Outcome Unit × σ × Builder} (hbody : Steps body)
    {head : Line} (hl : head.temp? = none) : Steps (branch head body) := by
  intro m b
  cases hw : b.isWriting with
  | false =>
    simp only [branch, Builder.emit_of_not_isWriting hw]
    exact .refl
  | true =>
    rw [branch_of_isWriting hw]
    have hwrite : b.Reaches (b.written head) := .single (.write hw hl)
    refine Outcome.reaches_andThen (hwrite.trans (hbody _ _)) fun _ m' => ?_
    split
    · exact Builder.reaches_emit rfl ‹_›
    · exact .refl

theorem steps_define {body : List Expr → Program σ Expr} (hbody : ∀ args, Steps (body args).run)
    (s : Signature) : Steps (Program.define s body .pure).run := by
  intro m b
  cases hw : b.isWriting with
  | false => exact run_define_of_not_isWriting hw ▸ .refl
  | true =>
    by_cases hd : b.depth < maxDepth
    · rw [run_define_of_isWriting hw hd]
      have henter : b.Reaches b.opened := .single (.enter hw hd)
      have h := henter.trans (hbody (s.params.map (·.expr)) m b.opened)
      have hext : b.opened.Extends _ := run_extends (body (s.params.map (·.expr))) m b.opened
        (Builder.isWriting_iff.1 hw).1
      generalize (body (s.params.map (·.expr))).run m b.opened = ended at h hext
      obtain ⟨o | f | _, m₁, b₁⟩ := ended
      · exact h.trans (Builder.reaches_closeFunction_returnValue hw hext s o)
      · exact h.trans (Builder.reaches_closeFunction_error hw hext s f)
      · exact h
    · exact run_define_of_le hw (Nat.le_of_not_lt hd) ▸ .refl

/-- A conditional drops what its branches have written, or keeps it. -/
theorem reaches_conclude {b : Builder} {r : Outcome Unit × σ × Builder} (hw : b.isWriting = true)
    (h : b.Reaches r.2.2) (hext : b.Extends r.2.2) :
    b.Reaches (Outcome.conclude b.here r).2.2 := by
  obtain ⟨o | f | _, m, b'⟩ := r
  · exact h
  · exact h.trans (Builder.reaches_rollback hw hext)
  · exact h

theorem steps_when {body : Program σ Unit} (hbody : Steps body.run) (cond : String) :
    Steps (Program.when cond body .pure).run := by
  intro m b
  cases hw : b.isWriting with
  | false => exact run_when_of_not_isWriting hw ▸ .refl
  | true =>
    rw [run_when_of_isWriting hw]
    exact reaches_conclude hw (steps_branch hbody rfl m b)
      (carries_branch body.run_extends _ m b (Builder.isWriting_iff.1 hw).1)

theorem steps_choose {body other : Program σ Unit} (hbody : Steps body.run)
    (hother : Steps other.run) (cond : String) :
    Steps (Program.choose cond body other .pure).run := by
  intro m b
  cases hw : b.isWriting with
  | false => exact run_choose_of_not_isWriting hw ▸ .refl
  | true =>
    rw [run_choose_of_isWriting hw]
    exact reaches_conclude hw
      (steps_andThen (steps_branch hbody rfl) (fun _ => steps_branch hother rfl) m b)
      (carries_andThen (carries_branch body.run_extends _)
        (fun _ => carries_branch other.run_extends _) m b (Builder.isWriting_iff.1 hw).1)

/-- A build that its main body has brought to an end is settled. -/
theorem reaches_settle {r : Outcome Expr × σ × Builder} (hb : r.2.2.building = true) :
    r.2.2.Reaches (Outcome.settle r).2.2 := by
  obtain ⟨o | f | _, m, b⟩ := r
  · obtain ⟨f, hc⟩ | ⟨hw, hc, -⟩ := b.complete_cases o
    · have h : Builder.Step b ((b.complete o).2.settle (b.complete o).1) :=
        hc ▸ .settle hb
      exact .single h
    · have hwrite : b.Reaches (b.complete o).2 := hc ▸ .single (.write hw rfl)
      exact hwrite.tail (.settle (hc ▸ hb))
  · exact .single (.settle (r := .error f) hb)
  · exact .refl

theorem steps_build {main : Fragment → Program σ Expr} (hmain : ∀ f, Steps (main f).run)
    (wanted : List Var) : Steps (Program.build wanted main .pure).run := by
  intro m b
  cases hb : b.building with
  | true => exact run_build_of_building hb ▸ .refl
  | false =>
    rw [run_build_of_not_building hb]
    cases hu : Builder.collectUniforms wanted with
    | error f =>
      have hnone : Builder.collectUniforms [] = .ok [] := rfl
      have hstart : b.Reaches (b.begun []) := .single (.start hb hnone)
      have hsettle : (b.begun []).Step ((b.begun []).settle (.error f)) := .settle rfl
      exact hstart.tail hsettle
    | ok uniforms =>
      have hstart : b.Reaches (b.begun uniforms) := .single (.start hb hu)
      have h := hstart.trans (hmain ⟨uniforms⟩ m (b.begun uniforms))
      have hext : (b.begun uniforms).Extends _ := run_extends (main ⟨uniforms⟩) m _ rfl
      exact h.trans (reaches_settle hext.building)

/-- **Every run goes by steps**, on any builder and however it ends. -/
theorem run_reaches (p : Program σ α) : Steps p.run := by
  induction p with
  | pure a => exact fun _ b => .refl
  | fail f => exact fun _ b => .refl
  | abort => exact fun _ b => .refl
  | own act k ih => exact fun m b => ih _ _ b
  | look k ih => exact fun m b => ih _ m b
  | perform op k ih =>
    intro m b
    simp only [run]
    split
    · exact (Builder.reaches_perform ‹_›).trans (ih _ _ _)
    · exact ih _ _ _
  | emit line k ih =>
    intro m b
    simp only [run]
    split
    · exact (Builder.reaches_emit rfl ‹_›).trans (ih _ _ _)
    · exact ih _ _ _
  | define s body k ihb ih =>
    intro m b
    rw [run_define]
    exact steps_andThen (steps_define ihb s) ih m b
  | when cond body k ihb ih =>
    intro m b
    rw [run_when]
    exact steps_andThen (steps_when ihb cond) ih m b
  | choose cond body other k ihb iho ih =>
    intro m b
    rw [run_choose]
    exact steps_andThen (steps_choose ihb iho cond) ih m b
  | build us main k ihm ih =>
    intro m b
    rw [run_build]
    exact steps_andThen (steps_build ihm us) ih m b
  | fresh policy body k _ ih =>
    -- the steps of the body are those of another builder
    intro m b
    simp only [run]
    split
    · exact .refl
    · exact ih _ _ b
    · exact ih _ _ b
  | contain body k ihb ih =>
    intro m b
    exact (ihb m b).trans (ih _ _ _)

end Program

end Shader
