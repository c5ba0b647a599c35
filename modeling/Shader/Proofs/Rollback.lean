import Shader.Proofs.Catalogue

/-!
# Conditionals that fail

A conditional fails exactly if one of its branches does. It answers with the failure of that branch
and gives back the scopes it was begun on, also if the branch has left scopes open above them. All
else stays as the branch has left it.

* `Builder.AccountsFrom`, `Step.accountsFrom`: inside a build functions come from definitions alone;
  **`functions_run`**: the functions after a run are those there were and those it has defined;
* `branch_eq_failed`, `branch_eq_done_iff`: a branch ends as its body does;
* **`run_when_eq_error`**, **`run_choose_eq_error`**: when a conditional fails, and what it leaves;
* **`failed_conditional_traceless`**: nothing of it is left in the scopes.
-/

namespace Shader

variable {σ α β : Type}

namespace Event

/-- What is reported inside a build is not the start of one. -/
theorem isStart_of_isInner {e : Event} (h : e.isInner = true) : e.isStart = false := by
  cases e <;> simp_all [isInner, isStart]

/-- The function that an event reports. -/
def definition? (e : Event) : Option Definition := e.deed?.bind Deed.definition?

end Event

namespace Builder

/-! ## Functions inside a build -/

/-- `b'` comes from `b`, and if only lines and functions were reported since, then the functions
reported are those that came to the functions of `b`. -/
def AccountsFrom (b b' : Builder) : Prop :=
  ∃ new, b'.journal = new ++ b.journal ∧ ((∀ e ∈ new, e.isInner = true) →
    b'.functions = b.functions ++ new.reverse.filterMap Event.definition?)

namespace AccountsFrom

variable {b b' b'' : Builder} {e : Event}

theorem refl (b : Builder) : b.AccountsFrom b := ⟨[], rfl, fun _ => by simp⟩

/-- The functions that come with an event are those that it reports. -/
theorem report (h : b.AccountsFrom b') (hj : b''.journal = e :: b'.journal)
    (hf : b''.functions = b'.functions ++ e.definition?.toList) : b.AccountsFrom b'' := by
  obtain ⟨new, hnew, hfun⟩ := h
  refine ⟨e :: new, by rw [hj, hnew]; rfl, fun hinner => ?_⟩
  have hrest := hfun fun e he => hinner e (List.mem_cons_of_mem _ he)
  rw [hf, hrest, List.reverse_cons, List.filterMap_append, List.append_assoc]
  cases he : e.definition? <;> simp [he]

/-- What happens outside of a build is not accounted for. -/
theorem outer (h : b.AccountsFrom b') (hj : b''.journal = e :: b'.journal)
    (he : e.isInner = false) : b.AccountsFrom b'' := by
  obtain ⟨new, hnew, -⟩ := h
  refine ⟨e :: new, by rw [hj, hnew]; rfl, fun hinner => ?_⟩
  have := hinner e List.mem_cons_self
  simp [he] at this

end AccountsFrom

/-- **The invariant**: every step keeps account of the functions. -/
theorem Step.accountsFrom {b b' b'' : Builder} (h : b'.Step b'') (hb : b.AccountsFrom b') :
    b.AccountsFrom b'' := by
  cases h with
  | @write line _ hl =>
    refine hb.report (e := .emitted b'.depth line) rfl ?_
    rw [Event.definition?, Event.deed?_emitted_of_temp?_eq_none hl]
    exact (List.append_nil _).symm
  | @declare op _ _ =>
    refine hb.report (e := .emitted b'.depth (.declare b'.next op)) rfl ?_
    exact (List.append_nil _).symm
  | enter _ _ => exact hb
  | keep _ _ _ _ => exact hb.report rfl rfl
  | drop _ _ => exact hb
  | start _ _ => exact hb.outer rfl rfl
  | @settle r _ => cases r <;> exact hb.outer rfl rfl

/-- The deeds that a builder has reported, and those of what was reported since. -/
theorem deeds_of_inner {b b' : Builder} {new : List Event} (hj : b'.journal = new ++ b.journal)
    (hnew : ∀ e ∈ new, e.isInner = true) :
    b'.deeds = b.deeds ++ new.reverse.filterMap Event.deed? := by
  have hpos : ∀ e ∈ new, (!e.isStart) = true := fun e he => by
    rw [Event.isStart_of_isInner (hnew e he)]
    rfl
  rw [deeds, deeds, hj, List.takeWhile_append_of_pos hpos, List.reverse_append,
    List.filterMap_append]

/-- Lines can be written on what extends a builder on which they can. -/
theorem Extends.isWriting {b b' : Builder} (h : b.Extends b') (hw : b.isWriting = true) :
    b'.isWriting = true := by
  obtain ⟨hb, hs⟩ := isWriting_iff.1 hw
  obtain ⟨above, more, hs'⟩ := h.scopes
  refine isWriting_iff.2 ⟨h.building.trans hb, fun hnil => hs ?_⟩
  rw [hs', List.append_eq_nil_iff] at hnil
  have hlength := congrArg List.length hnil.2
  rw [List.length_modifyHead] at hlength
  exact List.eq_nil_of_length_eq_zero hlength

/-- A rollback to where a conditional began changes nothing but the scopes. -/
theorem rollback_here {b b' : Builder} (h : b.Extends b') :
    b'.rollback b.here = { b' with scopes := b.scopes } := by
  obtain ⟨above, more, hs⟩ := h.scopes
  rw [← scopes_rollback_here hs]
  rfl

end Builder

namespace Program

/-- **Inside a build the functions after a run are those there were before**, and behind them those
that its definitions have answered with, however it ends. -/
theorem functions_run (p : Program σ α) (m : σ) {b : Builder} (hb : b.building = true) :
    (p.run m b).2.2.functions = b.functions ++ (p.deeds m b).filterMap Deed.definition? := by
  obtain ⟨new, hj, hfun⟩ := (p.run_reaches m b).keeps Builder.Step.accountsFrom (.refl b)
  obtain ⟨new', hj', hinner⟩ := (p.run_extends m b hb).journal
  obtain rfl : new = new' := List.append_cancel_right (hj.symm.trans hj')
  have hdeeds := Builder.deeds_of_inner hj hinner
  rw [p.deeds_run m b hb] at hdeeds
  rw [hfun hinner, ← Deed.filterMap_definition?_filter_lasts, List.append_cancel_left hdeeds,
    List.filterMap_filterMap]
  rfl

/-! ## Branches -/

/-- A sequence fails if its first part does, or its second part behind the first. -/
theorem andThen_eq_failed {r : Outcome α × σ × Builder}
    {g : α → σ → Builder → Outcome β × σ × Builder} {m : σ} {b : Builder} {f : Failure} :
    Outcome.andThen r g = (.failed f, m, b) ↔
      r = (.failed f, m, b) ∨ ∃ a m₁ b₁, r = (.done a, m₁, b₁) ∧ g a m₁ b₁ = (.failed f, m, b) := by
  obtain ⟨a | f₁ | _, m₁, b₁⟩ := r
  · constructor
    · exact fun h => .inr ⟨a, m₁, b₁, rfl, h⟩
    · rintro (h | ⟨_, _, _, h, hg⟩)
      · cases h
      · cases h
        exact hg
  · simp [Outcome.andThen]
  · simp [Outcome.andThen]

section Branches

variable {head : Line} {body : Program σ Unit} {m m' : σ} {b b' : Builder} {f : Failure}

theorem extends_body {o : Outcome Unit} (hb : b.building = true)
    (h : body.run m (b.written head) = (o, m', b')) : b.Extends b' := by
  have hhead := b.extends_written head
  have hbody := body.run_extends m (b.written head) (hhead.building.trans hb)
  rw [h] at hbody
  exact hhead.trans hbody

/-- A branch ends as its body does, and is closed if it ends well. -/
theorem branch_eq (hw : b.isWriting = true) : branch head body.run m b =
    Outcome.andThen (body.run m (b.written head)) fun _ m b => (.done (), m, b.written .closing) := by
  rw [branch_of_isWriting hw]
  rcases hbody : body.run m (b.written head) with ⟨u | f | _, m₁, b₁⟩
  · have hclose := (extends_body (Builder.isWriting_iff.1 hw).1 hbody).isWriting hw
    simp only [Outcome.andThen, Builder.emit_of_isWriting hclose]
  · rfl
  · rfl

theorem branch_eq_failed (hw : b.isWriting = true) :
    branch head body.run m b = (.failed f, m', b') ↔
      body.run m (b.written head) = (.failed f, m', b') := by
  rw [branch_eq hw, andThen_eq_failed]
  simp

theorem branch_eq_done_iff {u : Unit} (hw : b.isWriting = true) :
    branch head body.run m b = (.done u, m', b') ↔
      ∃ b₁, body.run m (b.written head) = (.done (), m', b₁) ∧ b' = b₁.written .closing := by
  rw [branch_eq hw]
  rcases body.run m (b.written head) with ⟨u | f | _, m₁, b₁⟩
  all_goals simp [Outcome.andThen, eq_comm, and_assoc]

end Branches

/-! ## Conditionals -/

/-- A conditional that answers with a failure has been rolled back. -/
theorem conclude_eq_error {mark : Builder.Mark} {r : Outcome Unit × σ × Builder} {m : σ}
    {b : Builder} {f : Failure} : Outcome.conclude mark r = (.done (.error f), m, b) ↔
      ∃ b₁, r = (.failed f, m, b₁) ∧ b = b₁.rollback mark := by
  obtain ⟨u | f₁ | _, m₁, b₁⟩ := r
  all_goals simp [Outcome.conclude, eq_comm, and_assoc]

section Conditionals

variable {cond : String} {body other : Program σ Unit} {m m' : σ} {b b' : Builder} {f : Failure}

/-- **A conditional fails exactly if its branch does**, and with the same failure. The scopes are those
it was begun on, all else is as the branch has left it. -/
theorem run_when_eq_error (hw : b.isWriting = true) :
    (Program.when cond body .pure).run m b = (.done (.error f), m', b') ↔
      ∃ b₁, body.run m (b.written (.opening cond)) = (.failed f, m', b₁) ∧
        b' = { b₁ with scopes := b.scopes } := by
  rw [run_when_of_isWriting hw, conclude_eq_error]
  refine exists_congr fun b₁ => ?_
  rw [branch_eq_failed hw]
  refine and_congr_right fun hbody => ?_
  rw [Builder.rollback_here (extends_body (Builder.isWriting_iff.1 hw).1 hbody)]

/-- **A conditional with an alternative fails exactly if one of its branches does**, the second being
run only if the first has ended well. -/
theorem run_choose_eq_error (hw : b.isWriting = true) :
    (Program.choose cond body other .pure).run m b = (.done (.error f), m', b') ↔
      (∃ b₁, body.run m (b.written (.opening cond)) = (.failed f, m', b₁) ∧
        b' = { b₁ with scopes := b.scopes }) ∨
      ∃ m₁ b₁ b₂, body.run m (b.written (.opening cond)) = (.done (), m₁, b₁) ∧
        other.run m₁ ((b₁.written .closing).written .otherwise) = (.failed f, m', b₂) ∧
        b' = { b₂ with scopes := b.scopes } := by
  have hb := (Builder.isWriting_iff.1 hw).1
  have hsecond {m₁ : σ} {b₁ b₂ : Builder}
      (hbody : body.run m (b.written (.opening cond)) = (.done (), m₁, b₁)) :
      branch .otherwise other.run m₁ (b₁.written .closing) = (.failed f, m', b₂) ↔
        other.run m₁ ((b₁.written .closing).written .otherwise) = (.failed f, m', b₂) :=
    branch_eq_failed (Builder.isWriting_written ((extends_body hb hbody).isWriting hw) .closing)
  have hback {m₁ : σ} {b₁ b₂ : Builder}
      (hbody : body.run m (b.written (.opening cond)) = (.done (), m₁, b₁))
      (hother : other.run m₁ ((b₁.written .closing).written .otherwise) = (.failed f, m', b₂)) :
      b₂.rollback b.here = { b₂ with scopes := b.scopes } := by
    have hfirst := (extends_body hb hbody).trans (b₁.extends_written .closing)
    exact Builder.rollback_here (hfirst.trans (extends_body (hfirst.building.trans hb) hother))
  simp only [run_choose_of_isWriting hw, conclude_eq_error, andThen_eq_failed, branch_eq_failed hw,
    branch_eq_done_iff hw]
  constructor
  · rintro ⟨b₂, hbody | ⟨-, m₁, _, ⟨b₁, hbody, rfl⟩, hother⟩, rfl⟩
    · exact .inl ⟨b₂, hbody, Builder.rollback_here (extends_body hb hbody)⟩
    · have hother' := (hsecond hbody).1 hother
      exact .inr ⟨m₁, b₁, b₂, hbody, hother', hback hbody hother'⟩
  · rintro (⟨b₁, hbody, rfl⟩ | ⟨m₁, b₁, b₂, hbody, hother, rfl⟩)
    · exact ⟨b₁, .inl hbody, (Builder.rollback_here (extends_body hb hbody)).symm⟩
    · exact ⟨b₂, .inr ⟨(), m₁, _, ⟨b₁, hbody, rfl⟩, (hsecond hbody).2 hother⟩,
        (hback hbody hother).symm⟩

end Conditionals

/-- **A failed conditional leaves no trace in the scopes.** Inside a build a conditional fails exactly
if one of its branches does, with the very failure of that branch; the second branch is run only if the
first has ended well, so behind a failed first one there might as well be none. Whatever the branches
have done, all scopes are as they were before; no temporary is given back; and the functions are those
there were, and then those that were defined inside. -/
theorem failed_conditional_traceless {σ : Type} (cond : String) (body : Program σ Unit) {m m' : σ}
    {b b' : Builder} {f : Failure} (hb : b.building = true) (hs : b.scopes ≠ []) :
    ((Program.when cond body .pure).run m b = (.done (.error f), m', b') ↔
      ∃ b₁, body.run m (b.written (.opening cond)) = (.failed f, m', b₁) ∧
        b' = { b₁ with scopes := b.scopes }) ∧
    (∀ other : Program σ Unit,
      (Program.choose cond body other .pure).run m b = (.done (.error f), m', b') ↔
        (∃ b₁, body.run m (b.written (.opening cond)) = (.failed f, m', b₁) ∧
          b' = { b₁ with scopes := b.scopes }) ∨
        ∃ m₁ b₁ b₂, body.run m (b.written (.opening cond)) = (.done (), m₁, b₁) ∧
          other.run m₁ ((b₁.written .closing).written .otherwise) = (.failed f, m', b₂) ∧
          b' = { b₂ with scopes := b.scopes }) ∧
    (∀ (other : Program σ Unit) (b₁ : Builder),
      body.run m (b.written (.opening cond)) = (.failed f, m', b₁) →
      (Program.choose cond body other .pure).run m b = (Program.when cond body .pure).run m b) ∧
    ∀ p : Program σ (Except Failure Unit),
      p = .when cond body .pure ∨ (∃ other, p = .choose cond body other .pure) →
      p.run m b = (.done (.error f), m', b') →
      b'.scopes = b.scopes ∧ b.next ≤ b'.next ∧
        b'.functions = b.functions ++ (p.deeds m b).filterMap Deed.definition? := by
  have hw := Builder.isWriting_iff.2 ⟨hb, hs⟩
  refine ⟨run_when_eq_error hw, fun other => run_choose_eq_error hw, fun other b₁ hbody => ?_, ?_⟩
  · rw [(run_when_eq_error hw).2 ⟨b₁, hbody, rfl⟩, (run_choose_eq_error hw).2 (.inl ⟨b₁, hbody, rfl⟩)]
  · intro p hp hrun
    have hext := p.run_extends m b hb
    have hfun := p.functions_run m hb
    rw [hrun] at hext hfun
    refine ⟨?_, hext.next, hfun⟩
    obtain rfl | ⟨other, rfl⟩ := hp
    · obtain ⟨b₁, -, rfl⟩ := (run_when_eq_error hw).1 hrun
      rfl
    · obtain ⟨b₁, -, rfl⟩ | ⟨_, _, b₂, -, -, rfl⟩ := (run_choose_eq_error hw).1 hrun
      · rfl
      · rfl

/-- A branch that defines a function, leaves the scope of another one open, declares a temporary there
and fails. -/
def strayed : Program Unit Unit := do
  let _ ← function ⟨"whole", .float, []⟩ fun _ => return ⟨"1.0", .float⟩
  let half : Program Unit Callee := .define ⟨"half", .float, []⟩ (fun _ => .abort) ofExcept
  .contain half fun _ => do
    let _ ← op (.intrinsic .sin ⟨"t", .float⟩)
    .fail ⟨.unknownUniform "k", none⟩

/-- A function without lines of its own. -/
def whole : Definition := ⟨⟨"whole", .float, []⟩, [.result ⟨"1.0", .float⟩]⟩

/-- Only the whole function is left of such a branch, first or second, and its temporary is used up. -/
theorem failed_conditional_traceless_strayed :
    let b : Builder :=
      { policy := .perBuild, building := true, scopes := [[.raw "a;"], [.raw "b;"]], next := 7 }
    (∃ b', (Program.when "t > 0.0" strayed .pure).run () b =
        (.done (.error ⟨.unknownUniform "k", none⟩), (), b') ∧
      b'.scopes = [[.raw "a;"], [.raw "b;"]] ∧ b'.next = 8 ∧ b'.functions = [whole]) ∧
    ∃ b', (Program.choose "t > 0.0" (line "x;") strayed .pure).run () b =
        (.done (.error ⟨.unknownUniform "k", none⟩), (), b') ∧
      b'.scopes = [[.raw "a;"], [.raw "b;"]] ∧ b'.next = 8 ∧ b'.functions = [whole] := by
  intro b
  have hs : b.scopes ≠ [] := by simp [b]
  constructor
  · obtain ⟨b', hrun, hnext⟩ : ∃ b', (Program.when "t > 0.0" strayed .pure).run () b =
        (.done (.error ⟨.unknownUniform "k", none⟩), (), b') ∧ b'.next = 8 := ⟨_, rfl, rfl⟩
    have hdeeds : ((Program.when "t > 0.0" strayed .pure).deeds () b).filterMap Deed.definition? =
        [whole] := by decide +kernel
    obtain ⟨hscopes, -, hfun⟩ :=
      (failed_conditional_traceless "t > 0.0" strayed rfl hs).2.2.2 _ (.inl rfl) hrun
    exact ⟨b', hrun, hscopes, hnext, hfun.trans hdeeds⟩
  · obtain ⟨b', hrun, hnext⟩ : ∃ b',
        (Program.choose "t > 0.0" (line "x;") strayed .pure).run () b =
          (.done (.error ⟨.unknownUniform "k", none⟩), (), b') ∧ b'.next = 8 := ⟨_, rfl, rfl⟩
    have hdeeds : ((Program.choose "t > 0.0" (line "x;") strayed .pure).deeds () b).filterMap
        Deed.definition? = [whole] := by decide +kernel
    obtain ⟨hscopes, -, hfun⟩ :=
      (failed_conditional_traceless "t > 0.0" (line "x;") rfl hs).2.2.2 _ (.inr ⟨_, rfl⟩) hrun
    exact ⟨b', hrun, hscopes, hnext, hfun.trans hdeeds⟩

end Program

end Shader
