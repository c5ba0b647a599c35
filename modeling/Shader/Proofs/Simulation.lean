import Shader.Proofs.Frame
import Shader.Proofs.Meaning

/-!
# Runs have the meaning of their programs

The builder keeps one stack of scopes, which it opens, closes and cuts. A program that is not
abandoned cannot tell: it ends as its meaning says, and what it means is what it leaves behind in
the scope it was started in.

* `Effect.Leads`: what an effect makes of a builder;
* `Program.HasMeaning`: the runs of a program have its meaning;
* `answers_define`, `answers_when`, `answers_choose`, `answers_build`: the calls, if their bodies do;
* **`hasMeaning_of_abortFree`**: every program that is not abandoned;
* **`build_meaning`**: the shader of a build.
-/

namespace Shader

variable {σ α β : Type}

/-- A builder that is building has a scope open, an idle one has none. -/
def Builder.InPhase (b : Builder) : Prop := b.building = !b.scopes.isEmpty

namespace Builder.InPhase

variable {b : Builder}

theorem isWriting (hb : b.InPhase) : b.isWriting = b.building := by
  unfold InPhase at hb
  simp [Builder.isWriting, hb]

theorem depth_eq_zero_iff (hb : b.InPhase) : b.depth = 0 ↔ b.building = false := by
  unfold InPhase at hb
  rw [hb]
  cases hs : b.scopes <;> simp [depth, hs]

theorem depth_ne_zero (hb : b.InPhase) (h : b.building = true) : b.depth ≠ 0 := by
  rw [Ne, hb.depth_eq_zero_iff, h]
  exact Bool.noConfusion

theorem exists_scopes (hb : b.InPhase) (h : b.building = true) :
    ∃ lower, b.scopes = b.lines :: lower := by
  obtain ⟨s, lower, hs⟩ := List.exists_cons_of_ne_nil
    (isWriting_iff.1 (hb.isWriting.trans h)).2
  exact ⟨lower, by simp [lines, hs]⟩

theorem scopes_eq_nil (hb : b.InPhase) (h : b.building = false) : b.scopes = [] := by
  unfold InPhase at hb
  simpa [h] using hb

end Builder.InPhase

namespace Effect

/-- What an effect makes of a builder: its lines stand behind those of the innermost scope and its
functions behind those there were. Without a build there is nothing to write. -/
structure Leads (r : Effect σ α) (b b' : Builder) : Prop where
  scopes : b'.scopes = b.scopes.modifyHead (· ++ r.lines)
  idle : b.building = false → r.lines = []
  functions : b.building = true → b'.functions = b.functions ++ r.functions
  uniforms : b.building = true → b'.uniforms = b.uniforms
  policy : b'.policy = b.policy
  building : b'.building = b.building
  next : b'.next = r.next

namespace Leads

variable {r : Effect σ α} {b b' : Builder}

theorem depth (h : r.Leads b b') : b'.depth = b.depth := by
  simp [Builder.depth, h.scopes]

theorem inPhase (h : r.Leads b b') (hb : b.InPhase) : b'.InPhase := by
  unfold Builder.InPhase at hb ⊢
  rw [h.building, hb, h.scopes]
  cases b.scopes <;> rfl

theorem lines (h : r.Leads b b') (hb : b.InPhase) : b'.lines = b.lines ++ r.lines := by
  cases hw : b.building with
  | false => simp [Builder.lines, h.scopes, h.idle hw, hb.scopes_eq_nil hw]
  | true =>
    obtain ⟨lower, hs⟩ := hb.exists_scopes hw
    rw [Builder.lines, h.scopes, hs]
    rfl

/-- An operation and what follows it. -/
theorem trans {c : Effect σ β} {b₁ b₂ : Builder} (hc : c.Leads b b₁) (hr : r.Leads b₁ b₂) :
    Leads { r with lines := c.lines ++ r.lines, functions := c.functions ++ r.functions } b b₂ where
  scopes := by
    rw [hr.scopes, hc.scopes]
    cases b.scopes <;> simp
  idle h := by simp [hc.idle h, hr.idle (hc.building.trans h)]
  functions h := by
    rw [hr.functions (hc.building.trans h), hc.functions h, List.append_assoc]
  uniforms h := (hr.uniforms (hc.building.trans h)).trans (hc.uniforms h)
  policy := hr.policy.trans hc.policy
  building := hr.building.trans hc.building
  next := hr.next

/-- What counts of an effect: its lines, its functions and the next number. -/
theorem of_eq {c : Effect σ β} (h : c.Leads b b') (hl : r.lines = c.lines)
    (hf : r.functions = c.functions) (hn : r.next = c.next) : r.Leads b b' where
  scopes := hl ▸ h.scopes
  idle hb := hl ▸ h.idle hb
  functions hb := hf ▸ h.functions hb
  uniforms := h.uniforms
  policy := h.policy
  building := h.building
  next := hn ▸ h.next

end Leads

/-- An effect without lines and functions leaves a builder as it is. -/
theorem leads_self (o : Except Failure α) (m : σ) (b : Builder) :
    (⟨o, m, [], [], b.next⟩ : Effect σ α).Leads b b where
  scopes := by cases b.scopes <;> simp
  idle _ := rfl
  functions _ := (List.append_nil _).symm
  uniforms _ := rfl
  policy := rfl
  building := rfl
  next := rfl

/-- A line is written. -/
theorem leads_written {b : Builder} (h : b.building = true) (o : Except Failure α) (m : σ)
    (line : Line) : Leads (⟨o, m, [line], [], b.next⟩ : Effect σ α) b (b.written line) where
  scopes := rfl
  idle hb := by simp [h] at hb
  functions _ := (List.append_nil _).symm
  uniforms _ := rfl
  policy := rfl
  building := rfl
  next := rfl

theorem leads_declared {b : Builder} (h : b.building = true) (o : Except Failure α) (m : σ)
    (op : Operation) : Leads (⟨o, m, [.declare b.next op], [], b.next + 1⟩ : Effect σ α) b
      (b.declared op) where
  scopes := rfl
  idle hb := by simp [h] at hb
  functions _ := (List.append_nil _).symm
  uniforms _ := rfl
  policy := rfl
  building := rfl
  next := rfl

/-- A run ends as the effect says, on a builder that the effect leads to. -/
def Holds (r : Effect σ α) (b : Builder) (ran : Outcome α × σ × Builder) : Prop :=
  ∃ b', ran = (.ofExcept r.outcome, r.memory, b') ∧ r.Leads b b'

/-- A call answers what the effect says, on a builder that the effect leads to. -/
def Answers (c : Effect σ β) (b : Builder) (ran : Outcome (Except Failure β) × σ × Builder) :
    Prop :=
  ∃ b', ran = (.done c.outcome, c.memory, b') ∧ c.Leads b b'

theorem answers_refused (f : Failure) (m : σ) (b : Builder) :
    (refused f m b.next : Effect σ β).Answers b (.done (.error f), m, b) :=
  ⟨b, rfl, leads_self _ m b⟩

/-- A conditional that fails is rolled back. -/
theorem leads_rollback {r : Effect σ α} {b b' : Builder} (h : r.Leads b b') :
    Leads { r with lines := [] } b (b'.rollback b.here) where
  scopes := by
    have hs : b'.scopes = [] ++ b.scopes.modifyHead (· ++ r.lines) := h.scopes
    rw [Builder.scopes_rollback_here hs]
    cases b.scopes <;> simp
  idle _ := rfl
  functions := h.functions
  uniforms := h.uniforms
  policy := h.policy
  building := h.building
  next := h.next

end Effect

namespace Program

/-- The runs of a program have its meaning. -/
def HasMeaning (p : Program σ α) : Prop :=
  ∀ (m : σ) (b : Builder), b.InPhase →
    (p.meaning b.policy b.depth b.lines m b.next).Holds b (p.run m b)

/-- An operation has its meaning if the call and what follows it do. -/
theorem holds_goOn {c : Effect σ β} {b : Builder} {call : Outcome (Except Failure β) × σ × Builder}
    {k : Except Failure β → Program σ α} (hb : b.InPhase) (hc : c.Answers b call)
    (hk : ∀ r, (k r).HasMeaning) :
    (c.goOn b.lines fun r seen m n => (k r).meaning b.policy b.depth seen m n).Holds b
      (Outcome.andThen call fun r m b => (k r).run m b) := by
  obtain ⟨b₁, rfl, hl⟩ := hc
  have h := hk c.outcome c.memory b₁ (hl.inPhase hb)
  rw [hl.policy, hl.depth, hl.lines hb, hl.next] at h
  obtain ⟨b₂, hrun, hl₂⟩ := h
  exact ⟨b₂, hrun, hl.trans hl₂⟩

theorem answers_perform {b : Builder} (hb : b.InPhase) (op : Operation) (m : σ) :
    (Effect.performed op b.depth m b.next).Answers b
      ((Program.perform op .pure).run m b) := by
  simp only [run, Builder.perform]
  cases hop : op.check with
  | error f =>
    rw [Effect.performed, hop]
    exact Effect.answers_refused f m b
  | ok =>
    rw [Effect.performed, hop]
    cases hw : b.building with
    | false =>
      rw [if_pos (hb.depth_eq_zero_iff.2 hw),
        Builder.ensureWriting_of_not_isWriting (hb.isWriting.trans hw)]
      exact Effect.answers_refused _ m b
    | true =>
      rw [if_neg (hb.depth_ne_zero hw),
        Builder.ensureWriting_of_isWriting (hb.isWriting.trans hw)]
      exact ⟨_, rfl, Effect.leads_declared hw _ m op⟩

theorem answers_emit {b : Builder} (hb : b.InPhase) (text : String) (m : σ) :
    (Effect.emitted text b.depth m b.next).Answers b ((Program.emit text .pure).run m b) := by
  simp only [run]
  cases hw : b.building with
  | false =>
    rw [Effect.emitted, if_pos (hb.depth_eq_zero_iff.2 hw),
      Builder.emit_of_not_isWriting (hb.isWriting.trans hw)]
    exact Effect.answers_refused _ m b
  | true =>
    rw [Effect.emitted, if_neg (hb.depth_ne_zero hw),
      Builder.emit_of_isWriting (hb.isWriting.trans hw)]
    exact ⟨_, rfl, Effect.leads_written hw _ m _⟩

/-! ## Functions -/

/-- The end of a function whose body has kept to its own scope. -/
theorem close_of_scopes {s : Signature} {b : Builder} {lines : List Line}
    {outer : List (List Line)} (o : Except Failure Expr) (m : σ) (hb : b.isWriting = true)
    (hs : b.scopes = lines :: outer) :
    Outcome.close s (outer.length + 1) (.ofExcept o, m, b) =
      match Effect.returned s o with
      | .ok value => (.done (.ok s.callee), m,
        { b.written (.result value) with scopes := outer }.addFunction
          ⟨s, lines ++ [Line.result value]⟩)
      | .error f => (.done (.error (f.inScope s.name)), m, { b with scopes := outer }) := by
  have hd : b.depth = outer.length + 1 := by simp [Builder.depth, hs]
  cases o with
  | error f =>
    simp [Outcome.ofExcept, Outcome.close, Effect.returned, Except.bind, Builder.closeFunction,
      Builder.closeScope, hd, hs]
  | ok value =>
    by_cases ht : value.ty = s.result
    · have hw : (b.written (.result value)).lines = lines ++ [.result value] := by
        rw [Builder.lines_written hb, Builder.lines, hs]
        rfl
      have hscopes : (b.written (.result value)).scopes.tail = outer := by
        simp [Builder.written, Builder.append, Builder.report, hs]
      simp [Outcome.ofExcept, Outcome.close, Effect.returned, Except.bind, Builder.returnValue,
        Builder.emit_of_isWriting hb, Builder.closeFunction, Builder.closeScope, hd, ht, hw,
        hscopes]
    · simp [Outcome.ofExcept, Outcome.close, Effect.returned, Except.bind, Builder.returnValue,
        Builder.closeFunction, Builder.closeScope, hd, hs, ht]

/-- A closed scope leaves the scopes it was opened on, with the functions finished in it. -/
theorem leads_closed {r : Effect σ Expr} {b b₁ : Builder} (h : r.Leads b.opened b₁)
    (o : Except Failure β) (journal : List Event) :
    Effect.Leads ⟨o, r.memory, [], r.functions, r.next⟩ b
      { b₁ with scopes := b.scopes, journal } where
  scopes := by cases b.scopes <;> simp
  idle _ := rfl
  functions := h.functions
  uniforms := h.uniforms
  policy := h.policy
  building := h.building
  next := h.next

theorem leads_addFunction {r : Effect σ α} {b b' : Builder} (h : r.Leads b b') (d : Definition) :
    Effect.Leads { r with functions := r.functions ++ [d] } b (b'.addFunction d) where
  scopes := h.scopes
  idle := h.idle
  functions hb := by rw [Builder.addFunction, Builder.report, h.functions hb, List.append_assoc]
  uniforms := h.uniforms
  policy := h.policy
  building := h.building
  next := h.next

theorem answers_define {body : List Expr → Program σ Expr} (hbody : ∀ args, (body args).HasMeaning)
    {b : Builder} (hb : b.InPhase) (s : Signature) (m : σ) :
    (Effect.defined s b.depth m b.next ((body (s.params.map (·.expr))).meaning b.policy
      (b.depth + 1) [] m b.next)).Answers b ((Program.define s body .pure).run m b) := by
  unfold Effect.defined
  cases hw : b.building with
  | false =>
    rw [if_pos (hb.depth_eq_zero_iff.2 hw), run_define_of_not_isWriting (hb.isWriting.trans hw)]
    exact Effect.answers_refused _ m b
  | true =>
    have hwrite := hb.isWriting.trans hw
    rw [if_neg (hb.depth_ne_zero hw)]
    by_cases hd : maxDepth ≤ b.depth
    · rw [if_pos hd, run_define_of_le hwrite hd]
      exact Effect.answers_refused _ m b
    · have hopened : b.opened.InPhase := by simp [Builder.InPhase, Builder.opened, hw]
      have h := hbody (s.params.map (·.expr)) m b.opened hopened
      change ((body (s.params.map (·.expr))).meaning b.policy (b.depth + 1) [] m b.next).Holds
        b.opened _ at h
      obtain ⟨b₁, hrun, hl⟩ := h
      rw [if_neg hd, run_define_of_isWriting hwrite (Nat.lt_of_not_le hd), hrun]
      generalize (body (s.params.map (·.expr))).meaning b.policy (b.depth + 1) [] m b.next = r at hl
      have hs : b₁.scopes = r.lines :: b.scopes := hl.scopes
      have hwrite₁ : b₁.isWriting = true := (hl.inPhase hopened).isWriting.trans (hl.building.trans hw)
      rw [show b.depth + 1 = b.scopes.length + 1 from rfl, close_of_scopes _ _ hwrite₁ hs]
      cases Effect.returned s r.outcome with
      | error f => exact ⟨_, rfl, leads_closed hl _ _⟩
      | ok value => exact ⟨_, rfl, leads_addFunction (leads_closed hl (.ok s.callee) _) _⟩

/-! ## Conditionals -/

/-- A branch writes its head and its lines, and its end if it has ended well. -/
def branchEffect (head : Line) (body : Effect σ Unit) : Effect σ Unit :=
  { body with lines := head :: body.lines ++ if body.outcome.isOk then [.closing] else [] }

section Branches

variable {body other : Program σ Unit} {b : Builder}

theorem holds_branch (hbody : body.HasMeaning) (hb : b.InPhase) (hw : b.building = true)
    (head : Line) (m : σ) :
    (branchEffect head (body.meaning b.policy b.depth (b.lines ++ [head]) m b.next)).Holds b
      (branch head body.run m b) := by
  have hhead := Effect.leads_written hw (.ok ()) m head
  have h := hbody m (b.written head) (hhead.inPhase hb)
  rw [hhead.policy, hhead.depth, hhead.lines hb, hhead.next] at h
  obtain ⟨b₁, hrun, hl⟩ := h
  rw [branch_of_isWriting (hb.isWriting.trans hw), hrun]
  dsimp only at hl ⊢
  generalize body.meaning b.policy b.depth (b.lines ++ [head]) m b.next = r at hl ⊢
  have hopen := hhead.trans hl
  have hbuilding : b₁.building = true := hl.building.trans hw
  obtain ⟨f | ⟨⟩, m₁, lines, functions, next⟩ := r
  · exact ⟨b₁, rfl, hopen.of_eq (by simp [branchEffect, Except.isOk, Except.toBool]) rfl rfl⟩
  · have hend := Effect.leads_written hbuilding (.ok ()) m₁ .closing
    have hwrite₁ := (hopen.inPhase hb).isWriting.trans hbuilding
    refine ⟨b₁.written .closing, ?_, (hopen.trans hend).of_eq ?_ ?_ hl.next.symm⟩
    · simp [branchEffect, Outcome.andThen, Outcome.ofExcept, Builder.emit_of_isWriting hwrite₁]
    · simp [branchEffect, Except.isOk, Except.toBool]
    · simp [branchEffect]

theorem answers_when (hbody : body.HasMeaning) (hb : b.InPhase) (cond : String) (m : σ) :
    (Effect.conditional cond b.depth m b.next (body.meaning b.policy b.depth
      (b.lines ++ [.opening cond]) m b.next)).Answers b ((Program.when cond body .pure).run m b) := by
  unfold Effect.conditional
  cases hw : b.building with
  | false =>
    rw [if_pos (hb.depth_eq_zero_iff.2 hw), run_when_of_not_isWriting (hb.isWriting.trans hw)]
    exact Effect.answers_refused _ m b
  | true =>
    obtain ⟨b₁, hrun, hl⟩ := holds_branch hbody hb hw (.opening cond) m
    rw [if_neg (hb.depth_ne_zero hw), run_when_of_isWriting (hb.isWriting.trans hw),
      hrun]
    generalize body.meaning b.policy b.depth (b.lines ++ [.opening cond]) m b.next = r at hl ⊢
    obtain ⟨f | ⟨⟩, m₁, lines, functions, next⟩ := r
    · exact ⟨_, rfl, (Effect.leads_rollback hl).of_eq rfl rfl rfl⟩
    · exact ⟨b₁, rfl, hl⟩

theorem answers_choose (hbody : body.HasMeaning) (hother : other.HasMeaning) (hb : b.InPhase)
    (cond : String) (m : σ) :
    let first := body.meaning b.policy b.depth (b.lines ++ [.opening cond]) m b.next
    (Effect.alternative cond b.depth m b.next first (other.meaning b.policy b.depth
      (b.lines ++ first.firstBranch cond) first.memory first.next)).Answers b
        ((Program.choose cond body other .pure).run m b) := by
  dsimp only
  unfold Effect.alternative
  cases hw : b.building with
  | false =>
    rw [if_pos (hb.depth_eq_zero_iff.2 hw), run_choose_of_not_isWriting (hb.isWriting.trans hw)]
    exact Effect.answers_refused _ m b
  | true =>
    obtain ⟨b₁, hrun, hl⟩ := holds_branch hbody hb hw (.opening cond) m
    rw [if_neg (hb.depth_ne_zero hw),
      run_choose_of_isWriting (hb.isWriting.trans hw), hrun]
    generalize body.meaning b.policy b.depth (b.lines ++ [.opening cond]) m b.next = r at hl ⊢
    obtain ⟨f | ⟨⟩, m₁, lines, functions, next⟩ := r
    · exact ⟨_, rfl, (Effect.leads_rollback hl).of_eq rfl rfl rfl⟩
    · have hlines : b₁.lines ++ [.otherwise] =
          b.lines ++ Effect.firstBranch cond (⟨.ok (), m₁, lines, functions, next⟩ : Effect σ Unit) := by
        rw [hl.lines hb]
        simp [branchEffect, Effect.firstBranch, Except.isOk, Except.toBool]
      have h := holds_branch hother (hl.inPhase hb) (hl.building.trans hw) .otherwise m₁
      rw [hl.policy, hl.depth, hlines, hl.next] at h
      obtain ⟨b₂, hrun₂, hl₂⟩ := h
      change Effect.Answers _ b (Outcome.conclude b.here (branch .otherwise other.run m₁ b₁))
      rw [hrun₂]
      have hboth := hl.trans hl₂
      dsimp only [branchEffect] at hboth ⊢
      generalize other.meaning b.policy b.depth _ m₁ next = q at hboth ⊢
      obtain ⟨f | ⟨⟩, m₂, lines₂, functions₂, next₂⟩ := q
      · exact ⟨_, rfl, (Effect.leads_rollback hboth).of_eq rfl rfl rfl⟩
      · refine ⟨b₂, rfl, hboth.of_eq ?_ rfl rfl⟩
        simp [Effect.firstBranch, Except.isOk, Except.toBool]

end Branches

/-! ## Builds -/

section Builds

variable {main : Fragment → Program σ Expr} {b : Builder}

/-- The end of a build whose main body is not abandoned: its shader, and an idle builder. -/
theorem settle_main (hmain : ∀ f, (main f).HasMeaning) (uniforms : List Var) (m : σ) :
    let r := (main ⟨uniforms⟩).meaning b.policy 1 [] m (b.policy.start b.next)
    ∃ b', Outcome.settle ((main ⟨uniforms⟩).run m (b.begun uniforms)) =
        (.done (r.output uniforms), r.memory, b') ∧ b'.next = r.next ∧ b'.building = false ∧
      b'.scopes = [] ∧ b'.policy = b.policy := by
  dsimp only
  have h := hmain ⟨uniforms⟩ m (b.begun uniforms) rfl
  change ((main ⟨uniforms⟩).meaning b.policy 1 [] m (b.policy.start b.next)).Holds
    (b.begun uniforms) _ at h
  obtain ⟨b₁, hrun, hl⟩ := h
  rw [hrun]
  generalize (main ⟨uniforms⟩).meaning b.policy 1 [] m (b.policy.start b.next) = r at hl ⊢
  obtain ⟨f | value, m₁, lines, functions, next⟩ := r
  · exact ⟨_, rfl, hl.next, rfl, rfl, hl.policy⟩
  · have hbegun : (b.begun uniforms).InPhase := rfl
    have hw : b₁.isWriting = true := (hl.inPhase hbegun).isWriting.trans hl.building
    have hlines : b₁.lines = lines := by rw [hl.lines hbegun]; rfl
    have hdepth : b₁.depth = 1 := hl.depth
    have hcomplete := Builder.complete_of_isWriting hw value
    rw [if_pos hdepth, hlines, hl.functions rfl, hl.uniforms rfl] at hcomplete
    simp only [Outcome.ofExcept, Outcome.settle, hcomplete]
    exact ⟨_, rfl, hl.next, rfl, rfl, hl.policy⟩

theorem answers_build (hmain : ∀ f, (main f).HasMeaning) (hb : b.InPhase) (wanted : List Var)
    (m : σ) :
    (Effect.built wanted b.depth m b.next (b.policy.start b.next) fun uniforms =>
      (main ⟨uniforms⟩).meaning b.policy 1 [] m (b.policy.start b.next)).Answers b
        ((Program.build wanted main .pure).run m b) := by
  unfold Effect.built
  cases hw : b.building with
  | true =>
    rw [if_neg (hb.depth_ne_zero hw), run_build_of_building hw]
    exact Effect.answers_refused _ m b
  | false =>
    have hs := hb.scopes_eq_nil hw
    rw [if_pos (hb.depth_eq_zero_iff.2 hw), run_build_of_not_building hw]
    cases Builder.collectUniforms wanted with
    | error f =>
      refine ⟨_, rfl, ?_, fun _ => rfl, ?_, ?_, rfl, hw.symm, rfl⟩
      · rw [hs]
        rfl
      · simp [hw]
      · simp [hw]
    | ok uniforms =>
      obtain ⟨b', hrun, hn, hb', hs', hp⟩ := settle_main (b := b) hmain uniforms m
      refine ⟨b', hrun, ?_, fun _ => rfl, ?_, ?_, hp, hb'.trans hw.symm, hn⟩
      · rw [hs', hs]
        rfl
      · simp [hw]
      · simp [hw]

end Builds

/-! ## Programs -/

/-- **A program that is not abandoned runs as it is meant.** -/
theorem hasMeaning_of_abortFree (p : Program σ α) (hp : p.AbortFree) : p.HasMeaning := by
  induction p with
  | pure a => exact fun m b _ => ⟨b, rfl, Effect.leads_self _ m b⟩
  | fail f => exact fun m b _ => ⟨b, rfl, Effect.leads_self _ m b⟩
  | abort => exact hp.elim
  | own act k ih => exact fun m b hb => ih _ (hp _) _ b hb
  | look k ih =>
    intro m b hb
    have hview : b.view = ⟨b.depth, b.lines, b.depth ≠ 0⟩ := by
      simp [Builder.view, hb.depth_eq_zero_iff]
    simp only [run, hview]
    exact ih _ (hp _) m b hb
  | perform op k ih =>
    intro m b hb
    rw [run_perform]
    exact holds_goOn hb (answers_perform hb op m) fun r => ih r (hp r)
  | emit text k ih =>
    intro m b hb
    rw [run_emit]
    exact holds_goOn hb (answers_emit hb text m) fun r => ih r (hp r)
  | define s body k ihb ih =>
    intro m b hb
    rw [run_define]
    exact holds_goOn hb (answers_define (fun args => ihb args (hp.1 args)) hb s m)
      fun r => ih r (hp.2 r)
  | when cond body k ihb ih =>
    intro m b hb
    rw [run_when]
    exact holds_goOn hb (answers_when (ihb hp.1) hb cond m) fun r => ih r (hp.2 r)
  | choose cond body other k ihb iho ih =>
    intro m b hb
    rw [run_choose]
    exact holds_goOn hb (answers_choose (ihb hp.1) (iho hp.2.1) hb cond m) fun r => ih r (hp.2.2 r)
  | build wanted main k ihm ih =>
    intro m b hb
    rw [run_build]
    exact holds_goOn hb (answers_build (fun f => ihm f (hp.1 f)) hb wanted m) fun r => ih r (hp.2 r)
  | fresh policy body k ihb ih =>
    intro m b hb
    have hnew : (Builder.new policy).InPhase := rfl
    obtain ⟨b₁, hrun, -⟩ := ihb hp.1 m (.new policy) hnew
    have hbody : body.run m (.new policy) =
        (.ofExcept (body.meaning policy 0 [] m 0).outcome, (body.meaning policy 0 [] m 0).memory, b₁) :=
      hrun
    simp only [run, meaning, hbody]
    generalize body.meaning policy 0 [] m 0 = r
    obtain ⟨f | a, m₁, lines, functions, next⟩ := r
    · exact ih _ (hp.2 _) m₁ b hb
    · exact ih _ (hp.2 _) m₁ b hb
  | contain body k ihb ih =>
    intro m b hb
    obtain ⟨b₁, hrun, hl⟩ := ihb hp.1 m b hb
    have h := holds_goOn (k := fun r => k (.ofExcept r)) hb ⟨b₁, rfl, hl⟩ fun r => ih _ (hp.2 _)
    simp only [run, hrun]
    exact h

/-! ## Finished shaders -/

/-- **The shader of a build is what its main body means.** On an idle builder, a build whose main
body is not abandoned answers with the declared uniforms, the functions that the meaning of the main
body has finished and its lines, and the last line gives the colour; if the body fails, so does the
build. The builder is idle again and goes on with the number the meaning ends with. Uniforms that
contradict each other are refused before the body is run. -/
theorem build_meaning {wanted : List Var} {main : Fragment → Program σ Expr}
    (hmain : ∀ f, (main f).AbortFree) {b : Builder} (hb : b.building = false) (m : σ) :
    match Builder.collectUniforms wanted with
    | .error f => ∃ b', (Program.build wanted main .pure).run m b = (.done (.error f), m, b') ∧
        b'.next = b.policy.start b.next ∧ b'.building = false ∧ b'.scopes = [] ∧
        b'.policy = b.policy
    | .ok uniforms =>
      let r := (main ⟨uniforms⟩).meaning b.policy 1 [] m (b.policy.start b.next)
      ∃ b', (Program.build wanted main .pure).run m b = (.done (r.output uniforms), r.memory, b') ∧
        b'.next = r.next ∧ b'.building = false ∧ b'.scopes = [] ∧ b'.policy = b.policy := by
  rw [run_build_of_not_building hb]
  cases Builder.collectUniforms wanted with
  | error f => exact ⟨_, rfl, rfl, rfl, rfl, rfl⟩
  | ok uniforms =>
    exact settle_main (fun f => hasMeaning_of_abortFree (main f) (hmain f)) uniforms m

/-- The sine of a variable `t`. -/
def sineOfT : Operation := .intrinsic .sin ⟨"t", .float⟩

/-- A main body that defines a function `outer`. In there a conditional fails, after it has defined
a function `inner` and declared a temporary. -/
def innerOuter : Fragment → Program Unit Expr := fun _ =>
  .define ⟨"outer", .float, []⟩
    (fun _ => .when "t > 0.0"
      (.define ⟨"inner", .float, []⟩ (fun _ => .pure ⟨"1.0", .float⟩) fun _ =>
        .perform sineOfT fun _ => .fail ⟨.unknownUniform "k", none⟩)
      fun _ => .perform sineOfT ofExcept)
    fun _ => .perform sineOfT ofExcept

/-- Both functions are kept, `inner` first, and the number `0` stays used. -/
theorem build_meaning_innerOuter :
    ∃ b', (Program.build [] innerOuter .pure).run () (.new .perBuild) =
      (.done (.ok ⟨[],
        [⟨⟨"inner", .float, []⟩, [.result ⟨"1.0", .float⟩]⟩,
          ⟨⟨"outer", .float, []⟩, [.declare 1 sineOfT, .result ⟨"v1", .float⟩]⟩],
        [.declare 2 sineOfT, .color ⟨"v2", .float⟩]⟩), (), b') ∧ b'.next = 3 := by
  have hfree : ∀ f, (innerOuter f).AbortFree := by
    refine fun _ => ⟨fun _ => ⟨⟨fun _ => trivial, fun _ _ => trivial⟩, fun _ r => ?_⟩, fun _ r => ?_⟩
    · cases r <;> trivial
    · cases r <;> trivial
  obtain ⟨b', hrun, hnext, -⟩ := @build_meaning Unit [] _ hfree (.new .perBuild) rfl ()
  exact ⟨b', hrun, hnext⟩

end Program

end Shader
