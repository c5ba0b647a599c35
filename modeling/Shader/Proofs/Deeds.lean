import Shader.Proofs.Steps

/-!
# What a run has done

Most calls leave nothing behind. What lasts are the operations that succeed and the definitions that
answer with a function; what does harm is a conditional that is left half written. These are the deeds
of a run, told from outside by what its calls answer. The builder tells them too, in its journal.

* `Deed`: what a call may have done; `Program.deeds`: the deeds of a run on its builder, in the order in
  which the calls came to an end;
* `deeds_bind`: the deeds of a sequence are those of its parts;
* `Builder.deeds`: the deeds that a builder has reported since its build began;
* **`deeds_run`**: inside a build a builder reports the deeds of every run, however it ends.
-/

namespace Shader

variable {σ α β : Type}

/-- What a call has done. -/
inductive Deed
  /-- An operation has succeeded; its value is the temporary of the given number. -/
  | performed (n : Nat) (op : Operation)
  /-- A definition has answered with a handle for the given function. -/
  | defined (d : Definition) (f : Callee)
  /-- A conditional was left because one of its branches was abandoned. -/
  | leftBranch
deriving DecidableEq, Repr

namespace Deed

/-- Whether a deed leaves something behind. -/
def lasts : Deed → Bool
  | leftBranch => false
  | _ => true

/-- The function that a definition has made. -/
def definition? : Deed → Option Definition
  | defined d _ => some d
  | _ => none

/-- What an operation has done that would get the temporary `n`. -/
def ofOperation (n : Nat) (op : Operation) : Except Failure Expr → List Deed
  | .ok _ => [performed n op]
  | .error _ => []

/-- What a definition has done, by the outcome of its body and its answer: the function has the lines
that the body has written and the value it has answered. -/
def ofDefinition (s : Signature) : Outcome Expr × σ × Builder → Except Failure Callee → List Deed
  | (.done value, _, b), .ok f => [defined ⟨s, b.lines ++ [.result value]⟩ f]
  | _, _ => []

/-- What a conditional has done. -/
def ofConditional : Outcome α × σ × Builder → List Deed
  | (.aborted, _, _) => [leftBranch]
  | _ => []

end Deed

/-- What is done with the answer of a program. -/
def Outcome.deedsThen (r : Outcome α × σ × Builder) (k : α → σ → Builder → List Deed) : List Deed :=
  match r with
  | (.done a, m, b) => k a m b
  | _ => []

namespace Program

/-- **The deeds of a run** on the builder it is started with. A call inside a body comes before the call
that the body belongs to. -/
def deeds : {α : Type} → Program σ α → σ → Builder → List Deed
  | _, .pure _, _, _ | _, .fail _, _, _ | _, .abort, _, _ => []
  | _, .own act k, m, b => (k (act m).1).deeds (act m).2 b
  | _, .look k, m, b => (k b.view).deeds m b
  | _, .perform op k, m, b =>
    Outcome.deedsThen ((Program.perform op .pure).run m b) fun r m b' =>
      Deed.ofOperation b.next op r ++ (k r).deeds m b'
  | _, .emit line k, m, b =>
    Outcome.deedsThen ((Program.emit line .pure).run m b) fun r m b => (k r).deeds m b
  | _, .define s body k, m, b =>
    (if b.isWriting && b.depth < maxDepth then (body (s.params.map (·.expr))).deeds m b.opened
      else []) ++
    Outcome.deedsThen ((Program.define s body .pure).run m b) fun r m' b' =>
      Deed.ofDefinition s ((body (s.params.map (·.expr))).run m b.opened) r ++ (k r).deeds m' b'
  | _, .when cond body k, m, b =>
    (if b.isWriting then body.deeds m (b.written (.opening cond)) else []) ++
    Deed.ofConditional ((Program.when cond body .pure).run m b) ++
    Outcome.deedsThen ((Program.when cond body .pure).run m b) fun r m b => (k r).deeds m b
  | _, .choose cond body other k, m, b =>
    (if b.isWriting then
      body.deeds m (b.written (.opening cond)) ++
        Outcome.deedsThen (branch (.opening cond) body.run m b) fun _ m b =>
          other.deeds m (b.written .otherwise)
      else []) ++
    Deed.ofConditional ((Program.choose cond body other .pure).run m b) ++
    Outcome.deedsThen ((Program.choose cond body other .pure).run m b) fun r m b => (k r).deeds m b
  | _, .build wanted main k, m, b =>
    (match b.building, Builder.collectUniforms wanted with
      | false, .ok uniforms => (main ⟨uniforms⟩).deeds m (b.begun uniforms)
      | _, _ => []) ++
    Outcome.deedsThen ((Program.build wanted main .pure).run m b) fun r m b => (k r).deeds m b
  | _, .fresh policy body k, m, b =>
    -- the body works on another builder
    Outcome.deedsThen ((Program.fresh policy body .pure).run m b) fun r m b => (k r).deeds m b
  | _, .contain body k, m, b =>
    body.deeds m b ++ (k (body.run m b).1).deeds (body.run m b).2.1 (body.run m b).2.2

end Program

/-! ## Sequences -/

namespace Outcome

theorem deedsThen_andThen (r : Outcome α × σ × Builder)
    (g : α → σ → Builder → Outcome β × σ × Builder) (k : β → σ → Builder → List Deed) :
    deedsThen (andThen r g) k = deedsThen r fun a m b => deedsThen (g a m b) k := by
  obtain ⟨a | f | _, m, b⟩ := r <;> rfl

theorem deedsThen_append (r : Outcome α × σ × Builder) (k k' : α → σ → Builder → List Deed) :
    deedsThen r (fun a m b => k a m b ++ k' a m b) = deedsThen r k ++ deedsThen r k' := by
  obtain ⟨a | f | _, m, b⟩ := r <;> rfl

end Outcome

namespace Program

/-- **The deeds of a sequence are those of its parts.** -/
theorem deeds_bind (p : Program σ α) (g : α → Program σ β) (m : σ) (b : Builder) :
    (p.bind g).deeds m b =
      p.deeds m b ++ Outcome.deedsThen (p.run m b) fun a m b => (g a).deeds m b := by
  induction p generalizing m b with
  | pure a => rfl
  | fail f => rfl
  | abort => rfl
  | own act k ih => exact ih _ _ _ _
  | look k ih => exact ih _ _ _ _
  | perform op k ih =>
    simp only [Program.bind, deeds, ih, run_perform op k, Outcome.deedsThen_andThen,
      Outcome.deedsThen_append, List.append_assoc]
  | emit line k ih =>
    simp only [Program.bind, deeds, ih, run_emit line k, Outcome.deedsThen_andThen,
      Outcome.deedsThen_append]
  | define s body k _ ih =>
    simp only [Program.bind, deeds, ih, run_define s body k, Outcome.deedsThen_andThen,
      Outcome.deedsThen_append, List.append_assoc]
  | when cond body k _ ih =>
    simp only [Program.bind, deeds, ih, run_when cond body k, Outcome.deedsThen_andThen,
      Outcome.deedsThen_append, List.append_assoc]
  | choose cond body other k _ _ ih =>
    simp only [Program.bind, deeds, ih, run_choose cond body other k, Outcome.deedsThen_andThen,
      Outcome.deedsThen_append, List.append_assoc]
  | build us main k _ ih =>
    simp only [Program.bind, deeds, ih, run_build us main k, Outcome.deedsThen_andThen,
      Outcome.deedsThen_append, List.append_assoc]
  | fresh policy body k _ ih =>
    simp only [Program.bind, deeds, ih, run_fresh policy body k, Outcome.deedsThen_andThen,
      Outcome.deedsThen_append]
  | contain body k _ ih =>
    simp only [Program.bind, deeds, ih, List.append_assoc]
    rfl

end Program

/-! ## What a builder reports -/

namespace Event

/-- Whether an event is the start of a build. -/
def isStart : Event → Bool
  | buildStarted _ => true
  | _ => false

/-- The deed that an event reports. -/
def deed? : Event → Option Deed
  | emitted _ (.declare n op) => some (.performed n op)
  | functionDefined d => some (.defined d d.signature.callee)
  | _ => none

theorem deed?_emitted_of_temp?_eq_none {line : Line} (h : line.temp? = none) (depth : Nat) :
    (emitted depth line).deed? = none := by
  cases line with
  | declare n op => cases h
  | _ => rfl

end Event

namespace Builder

/-- The deeds that a builder has reported since the start of its build. -/
def deeds (b : Builder) : List Deed :=
  (b.journal.takeWhile (!·.isStart)).reverse.filterMap Event.deed?

theorem deeds_of_report {b b' : Builder} {e : Event} (h : b'.journal = e :: b.journal)
    (he : e.isStart = false) : b'.deeds = b.deeds ++ e.deed?.toList := by
  rw [deeds, deeds, h, List.takeWhile_cons_of_pos (by simp [he]), List.reverse_cons,
    List.filterMap_append]
  cases h : e.deed? <;> simp [h]

theorem deeds_begun (b : Builder) (uniforms : List Var) : (b.begun uniforms).deeds = [] := rfl

theorem deeds_written (b : Builder) (line : Line) (h : line.temp? = none) :
    (b.written line).deeds = b.deeds := by
  have hd := Event.deed?_emitted_of_temp?_eq_none h b.depth
  rw [deeds_of_report (b := b) (e := .emitted b.depth line) rfl rfl, hd]
  simp

theorem deeds_declared (b : Builder) (op : Operation) :
    (b.declared op).deeds = b.deeds ++ [.performed b.next op] :=
  deeds_of_report (e := .emitted b.depth (.declare b.next op)) rfl rfl

theorem deeds_addFunction (b : Builder) (d : Definition) :
    (b.addFunction d).deeds = b.deeds ++ [.defined d d.signature.callee] :=
  deeds_of_report (e := .functionDefined d) rfl rfl

theorem deeds_settle (b : Builder) (r : Except Failure Output) : (b.settle r).deeds = b.deeds := by
  cases r with
  | ok out => exact (deeds_of_report (b := b) rfl rfl).trans (List.append_nil _)
  | error f => exact (deeds_of_report (b := b) rfl rfl).trans (List.append_nil _)

theorem deeds_closeScope (b : Builder) (depth : Nat) : (b.closeScope depth).2.deeds = b.deeds := by
  rw [closeScope_fields]
  rfl

end Builder

/-- The end of a definition reports the function that it answers with, if it does. -/
theorem Outcome.deeds_close (s : Signature) (depth : Nat) (r : Outcome Expr × σ × Builder) :
    (Outcome.close s depth r).2.2.deeds =
      r.2.2.deeds ++ deedsThen (Outcome.close s depth r) fun f _ _ => Deed.ofDefinition s r f := by
  obtain ⟨value | f | _, m, b⟩ := r
  · obtain ⟨f, hr⟩ | ⟨hw, -, hr⟩ := b.returnValue_cases s value
    · simp [close, hr, Builder.closeFunction, deedsThen, Deed.ofDefinition, Builder.deeds_closeScope]
    · have hwritten := b.deeds_written (.result value) rfl
      obtain ⟨-, -, hc⟩ | ⟨f, hc⟩ := (b.written (.result value)).closeFunction_cases s depth (.ok ())
      · simp only [close, hr, hc, deedsThen, Deed.ofDefinition, Builder.deeds_addFunction,
          Builder.lines_written hw]
        rw [← hwritten]
        rfl
      · simp [close, hr, hc, deedsThen, Deed.ofDefinition, Builder.deeds_closeScope, hwritten]
  · simp [close, Builder.closeFunction, deedsThen, Deed.ofDefinition, Builder.deeds_closeScope]
  · simp [close, deedsThen]

theorem Outcome.deeds_conclude (mark : Builder.Mark) (r : Outcome Unit × σ × Builder) :
    (Outcome.conclude mark r).2.2.deeds = r.2.2.deeds := by
  obtain ⟨o | f | _, m, b⟩ := r <;> rfl

namespace Program

/-- On every builder that is in a build, what a program has done is reported. -/
def Tells (p : Program σ α) : Prop :=
  ∀ (m : σ) (b : Builder), b.building = true →
    (p.run m b).2.2.deeds = b.deeds ++ (p.deeds m b).filter Deed.lasts

theorem tells_bind {p : Program σ α} {g : α → Program σ β} (hp : Tells p)
    (hg : ∀ a, Tells (g a)) : Tells (p.bind g) := by
  intro m b hb
  have h := hp m b hb
  have hbuild := (p.run_extends m b hb).building.trans hb
  rw [run_bind, deeds_bind, List.filter_append, ← List.append_assoc, ← h]
  generalize p.run m b = r at hbuild
  obtain ⟨a | f | _, m', b'⟩ := r
  · exact hg a m' b' hbuild
  · simp [Outcome.andThen, Outcome.deedsThen]
  · simp [Outcome.andThen, Outcome.deedsThen]

theorem tells_perform (op : Operation) :
    Tells (Program.perform op .pure : Program σ _) := by
  intro m b _
  simp only [deeds, run]
  cases h : b.perform op with
  | error f => simp [Outcome.deedsThen, Deed.ofOperation]
  | ok r =>
    obtain ⟨e, b'⟩ := r
    obtain ⟨-, -, -, rfl⟩ := Builder.perform_eq_ok_iff.1 h
    exact Builder.deeds_declared b op

theorem tells_emit (line : String) :
    Tells (Program.emit line .pure : Program σ _) := by
  intro m b _
  simp only [deeds, run]
  cases h : b.emit (.raw line) with
  | error f => simp [Outcome.deedsThen]
  | ok b' =>
    obtain ⟨-, rfl⟩ := Builder.emit_eq_ok_iff.1 h
    simpa [Outcome.deedsThen] using b.deeds_written (.raw line) rfl

/-- A branch reports the deeds of its body. -/
theorem deeds_branch {body : Program σ Unit} (hbody : Tells body) (head : Line)
    (hl : head.temp? = none) (m : σ) {b : Builder} (hw : b.isWriting = true) :
    (branch head body.run m b).2.2.deeds =
      b.deeds ++ (body.deeds m (b.written head)).filter Deed.lasts := by
  have h := hbody m (b.written head) (Builder.isWriting_iff.1 hw).1
  rw [b.deeds_written head hl] at h
  rw [branch_of_isWriting hw, ← h]
  obtain ⟨o | f | _, m', b'⟩ := body.run m (b.written head)
  · dsimp only [Outcome.andThen]
    cases he : b'.emit .closing with
    | error f => rfl
    | ok b'' =>
      obtain ⟨-, rfl⟩ := Builder.emit_eq_ok_iff.1 he
      exact b'.deeds_written .closing rfl
  · rfl
  · rfl

/-- Of what a conditional itself has done, nothing lasts. -/
theorem filter_lasts_ofConditional (r : Outcome α × σ × Builder) :
    (Deed.ofConditional r).filter Deed.lasts = [] := by
  obtain ⟨o | f | _, m, b⟩ := r <;> rfl

theorem filter_lasts_ofDefinition (s : Signature) (r : Outcome Expr × σ × Builder)
    (f : Except Failure Callee) :
    (Deed.ofDefinition s r f).filter Deed.lasts = Deed.ofDefinition s r f := by
  obtain ⟨o | g | _, m, b⟩ := r <;> cases f <;> rfl

theorem filter_lasts_deedsThen (r : Outcome α × σ × Builder) (k : α → List Deed) :
    (Outcome.deedsThen r fun a _ _ => k a).filter Deed.lasts =
      Outcome.deedsThen r fun a _ _ => (k a).filter Deed.lasts := by
  obtain ⟨o | f | _, m, b⟩ := r <;> rfl

theorem deedsThen_nil (r : Outcome α × σ × Builder) :
    Outcome.deedsThen r (fun _ _ _ => []) = [] := by
  obtain ⟨o | f | _, m, b⟩ := r <;> rfl

theorem tells_define {body : List Expr → Program σ Expr}
    (hbody : ∀ args, Tells (body args)) (s : Signature) :
    Tells (Program.define s body .pure) := by
  intro m b hb
  cases hw : b.isWriting with
  | false =>
    simp [deeds, run_define_of_not_isWriting hw, hw, Outcome.deedsThen, Deed.ofDefinition]
  | true =>
    by_cases hd : b.depth < maxDepth
    · have h := hbody (s.params.map (·.expr)) m b.opened hb
      have hopened : b.opened.deeds = b.deeds := rfl
      rw [hopened] at h
      simp only [deeds, run_define_of_isWriting hw hd, Outcome.deeds_close, h, hw, hd, Bool.true_and,
        decide_true, if_true, List.append_nil, List.filter_append, filter_lasts_deedsThen,
        filter_lasts_ofDefinition, List.append_assoc]
    · simp [deeds, run_define_of_le hw (Nat.le_of_not_lt hd), hd, Outcome.deedsThen, Deed.ofDefinition]

theorem tells_when {body : Program σ Unit} (hbody : Tells body) (cond : String) :
    Tells (Program.when cond body .pure) := by
  intro m b hb
  cases hw : b.isWriting with
  | false => simp [deeds, run_when_of_not_isWriting hw, hw, Outcome.deedsThen, Deed.ofConditional]
  | true =>
    have h := deeds_branch hbody (.opening cond) rfl m hw
    simp only [deeds, run_when_of_isWriting hw, Outcome.deeds_conclude, h, hw, if_true,
      List.filter_append, filter_lasts_ofConditional, deedsThen_nil, List.append_nil]

theorem tells_choose {body other : Program σ Unit} (hbody : Tells body)
    (hother : Tells other) (cond : String) :
    Tells (Program.choose cond body other .pure) := by
  intro m b hb
  cases hw : b.isWriting with
  | false => simp [deeds, run_choose_of_not_isWriting hw, hw, Outcome.deedsThen, Deed.ofConditional]
  | true =>
    have h := deeds_branch hbody (.opening cond) rfl m hw
    simp only [deeds, run_choose_of_isWriting hw, Outcome.deeds_conclude, hw, if_true,
      List.filter_append, filter_lasts_ofConditional, deedsThen_nil, List.append_nil,
      ← List.append_assoc, ← h]
    rcases hr : branch (.opening cond) body.run m b with ⟨o | f | _, m₁, b₁⟩
    · obtain ⟨b₀, -, hw₀, rfl⟩ := branch_eq_done hw hr
      exact deeds_branch hother .otherwise rfl m₁ (Builder.isWriting_written hw₀ .closing)
    · simp [Outcome.andThen, Outcome.deedsThen]
    · simp [Outcome.andThen, Outcome.deedsThen]

theorem tells_build (wanted : List Var) (main : Fragment → Program σ Expr) :
    Tells (Program.build wanted main .pure) := by
  intro m b hb
  simp [deeds, run_build_of_building hb, hb, Outcome.deedsThen]

theorem tells_fresh (policy : CounterPolicy) (body : Program σ β) :
    Tells (Program.fresh policy body .pure) := by
  intro m b _
  simp only [deeds, deedsThen_nil, run]
  split <;> simp

/-- **A run inside a build is reported in full**, however it ends. -/
theorem deeds_run (p : Program σ α) : Tells p := by
  induction p with
  | pure a => exact fun _ b _ => by simp [run, deeds]
  | fail f => exact fun _ b _ => by simp [run, deeds]
  | abort => exact fun _ b _ => by simp [run, deeds]
  | own act k ih => exact fun m b hb => ih _ _ b hb
  | look k ih => exact fun m b hb => ih _ m b hb
  | perform op k ih => exact (tells_bind (tells_perform op) ih :)
  | emit line k ih => exact (tells_bind (tells_emit line) ih :)
  | define s body k ihb ih => exact (tells_bind (tells_define ihb s) ih :)
  | when cond body k ihb ih => exact (tells_bind (tells_when ihb cond) ih :)
  | choose cond body other k ihb iho ih => exact (tells_bind (tells_choose ihb iho cond) ih :)
  | build wanted main k _ ih => exact (tells_bind (tells_build wanted main) ih :)
  | fresh policy body k _ ih => exact (tells_bind (tells_fresh policy body) ih :)
  | contain body k ihb ih =>
    intro m b hb
    have hbuild := (body.run_extends m b hb).building.trans hb
    have h := ih (body.run m b).1 (body.run m b).2.1 (body.run m b).2.2 hbuild
    rw [ihb m b hb, List.append_assoc, ← List.filter_append] at h
    exact h

/-- What a build has done, is what its main body has done. -/
theorem deeds_build {wanted uniforms : List Var} {main : Fragment → Program σ Expr} {m : σ}
    {b : Builder} (hb : b.building = false) (hu : Builder.collectUniforms wanted = .ok uniforms) :
    (Program.build wanted main .pure).deeds m b = (main ⟨uniforms⟩).deeds m (b.begun uniforms) := by
  simp only [deeds, hb, hu, deedsThen_nil, List.append_nil]

end Program

end Shader
