import Shader.Proofs.Clashes
import Shader.Proofs.Depth

/-!
# Runs that meet no abort

A program may give up where it is never taken to: a body on arguments that its function is not called
with, a continuation on a failure that does not come. So a run that meets no abort says less about the
program than that it has none. But it is the run of a program that has none, with the same meaning.

* `Program.Completes`: a run meets no abort;
* `Program.withoutAborts`: the program that fails where another one is abandoned;
  **`run_withoutAborts`**, **`meaning_withoutAborts`**: it cannot be told from the other one;
* **`build_meaning_of_completes`**: what a build makes of a main body whose run meets no abort;
* **`scopes_in_step_of_completes`**: the depth and the failures of such runs.
-/

namespace Shader

variable {σ α β : Type}

/-- A call does not answer, or what follows it has the property. -/
def Outcome.Before (call : Outcome β × σ × Builder) (P : β → σ → Builder → Prop) : Prop :=
  match call with
  | (.done r, m, b) => P r m b
  | (.failed _, _, _) | (.aborted, _, _) => True

theorem Outcome.before_of_forall {call : Outcome β × σ × Builder} {P : β → σ → Builder → Prop}
    (h : ∀ r m b, P r m b) : Before call P := by
  obtain ⟨r | _ | _, m, b⟩ := call
  · exact h r m b
  · exact trivial
  · exact trivial

theorem Outcome.andThen_congr {call : Outcome β × σ × Builder} {P : β → σ → Builder → Prop}
    {f g : β → σ → Builder → Outcome α × σ × Builder} (h : Before call P)
    (hfg : ∀ r m b, P r m b → f r m b = g r m b) :
    Outcome.andThen call f = Outcome.andThen call g := by
  obtain ⟨r | _ | _, m, b⟩ := call
  · exact hfg r m b h
  · rfl
  · rfl

namespace Program

/-- The run of a program meets no abort, neither in it nor in one of the bodies that are run. -/
def Completes : {α : Type} → Program σ α → σ → Builder → Prop
  | _, .pure _, _, _ | _, .fail _, _, _ => True
  | _, .abort, _, _ => False
  | _, .own act k, m, b => (k (act m).1).Completes (act m).2 b
  | _, .look k, m, b => (k b.view).Completes m b
  | _, .perform op k, m, b =>
    Outcome.Before ((Program.perform op .pure).run m b) fun r m b => (k r).Completes m b
  | _, .emit line k, m, b =>
    Outcome.Before ((Program.emit line .pure).run m b) fun r m b => (k r).Completes m b
  | _, .define s body k, m, b =>
    (b.isWriting = true → b.depth < maxDepth →
      (body (s.params.map (·.expr))).Completes m b.opened) ∧
    Outcome.Before ((Program.define s body .pure).run m b) fun r m b => (k r).Completes m b
  | _, .when cond body k, m, b =>
    (b.isWriting = true → body.Completes m (b.written (.opening cond))) ∧
    Outcome.Before ((Program.when cond body .pure).run m b) fun r m b => (k r).Completes m b
  | _, .choose cond body other k, m, b =>
    (b.isWriting = true → body.Completes m (b.written (.opening cond))) ∧
    Outcome.Before (branch (.opening cond) body.run m b) (fun _ m b =>
      b.isWriting = true → other.Completes m (b.written .otherwise)) ∧
    Outcome.Before ((Program.choose cond body other .pure).run m b) fun r m b =>
      (k r).Completes m b
  | _, .build wanted main k, m, b =>
    (b.building = false → ∀ uniforms, Builder.collectUniforms wanted = .ok uniforms →
      (main ⟨uniforms⟩).Completes m (b.begun uniforms)) ∧
    Outcome.Before ((Program.build wanted main .pure).run m b) fun r m b => (k r).Completes m b
  | _, .fresh policy body k, m, b =>
    body.Completes m (.new policy) ∧
    Outcome.Before ((Program.fresh policy body .pure).run m b) fun r m b => (k r).Completes m b
  | _, .contain body k, m, b =>
    body.Completes m b ∧
    Outcome.Before ((Program.contain body .pure).run m b) fun r m b => (k r).Completes m b

/-- The program that fails wherever this one is abandoned. -/
def withoutAborts : {α : Type} → Program σ α → Program σ α
  | _, .pure a => .pure a
  | _, .fail f => .fail f
  | _, .abort => .fail (.ofMisuse .abandoned)
  | _, .own act k => .own act fun x => (k x).withoutAborts
  | _, .look k => .look fun v => (k v).withoutAborts
  | _, .perform op k => .perform op fun r => (k r).withoutAborts
  | _, .emit line k => .emit line fun r => (k r).withoutAborts
  | _, .define s body k =>
    .define s (fun args => (body args).withoutAborts) fun r => (k r).withoutAborts
  | _, .when cond body k => .when cond body.withoutAborts fun r => (k r).withoutAborts
  | _, .choose cond body other k =>
    .choose cond body.withoutAborts other.withoutAborts fun r => (k r).withoutAborts
  | _, .build wanted main k =>
    .build wanted (fun f => (main f).withoutAborts) fun r => (k r).withoutAborts
  | _, .fresh policy body k => .fresh policy body.withoutAborts fun r => (k r).withoutAborts
  | _, .contain body k => .contain body.withoutAborts fun r => (k r).withoutAborts

theorem abortFree_withoutAborts (p : Program σ α) : p.withoutAborts.AbortFree := by
  induction p with
  | pure _ | fail _ | abort => exact trivial
  | own _ _ ih | look _ ih | perform _ _ ih | emit _ _ ih => exact ih
  | define _ _ _ ihb ih | build _ _ _ ihb ih => exact ⟨ihb, ih⟩
  | when _ _ _ ihb ih | fresh _ _ _ ihb ih | contain _ _ ihb ih => exact ⟨ihb, ih⟩
  | choose _ _ _ _ ihb iho ih => exact ⟨ihb, iho, ih⟩

/-- **A meaning has no place for aborts**: they are failures in it. -/
theorem meaning_withoutAborts (p : Program σ α) (policy : CounterPolicy) (level : Nat)
    (seen : List Line) (m : σ) (next : Nat) :
    p.withoutAborts.meaning policy level seen m next = p.meaning policy level seen m next := by
  induction p generalizing policy level seen m next with
  | pure _ | fail _ | abort => rfl
  | own _ _ ih | look _ ih | perform _ _ ih | emit _ _ ih =>
    simp only [withoutAborts, meaning, ih]
  | define _ _ _ ihb ih | build _ _ _ ihb ih | when _ _ _ ihb ih | fresh _ _ _ ihb ih
  | contain _ _ ihb ih => simp only [withoutAborts, meaning, ihb, ih]
  | choose _ _ _ _ ihb iho ih => simp only [withoutAborts, meaning, ihb, iho, ih]

/-! ## Calls with other bodies -/

section Bodies

variable {m : σ} {b : Builder}

/-- A call depends on what the runs of its bodies are, not on the bodies. -/
theorem run_define_congr {s : Signature} {body body' : List Expr → Program σ Expr}
    (h : b.isWriting = true → b.depth < maxDepth →
      (body' (s.params.map (·.expr))).run m b.opened =
        (body (s.params.map (·.expr))).run m b.opened) :
    (Program.define s body' .pure).run m b = (Program.define s body .pure).run m b := by
  cases hw : b.isWriting with
  | false => rw [run_define_of_not_isWriting hw, run_define_of_not_isWriting hw]
  | true =>
    by_cases hd : b.depth < maxDepth
    · rw [run_define_of_isWriting hw hd, run_define_of_isWriting hw hd, h hw hd]
    · have hle := Nat.le_of_not_lt hd
      rw [run_define_of_le hw hle, run_define_of_le hw hle]

theorem branch_congr {head : Line} {body body' : Program σ Unit}
    (h : b.isWriting = true → body'.run m (b.written head) = body.run m (b.written head)) :
    branch head body'.run m b = branch head body.run m b := by
  cases hw : b.isWriting with
  | false => rw [branch, branch, Builder.emit_of_not_isWriting hw]
  | true => rw [branch_of_isWriting hw, branch_of_isWriting hw, h hw]

theorem run_when_congr {cond : String} {body body' : Program σ Unit}
    (h : b.isWriting = true →
      body'.run m (b.written (.opening cond)) = body.run m (b.written (.opening cond))) :
    (Program.when cond body' .pure).run m b = (Program.when cond body .pure).run m b := by
  cases hw : b.isWriting with
  | false => rw [run_when_of_not_isWriting hw, run_when_of_not_isWriting hw]
  | true => rw [run_when_of_isWriting hw, run_when_of_isWriting hw, branch_congr h]

theorem run_choose_congr {cond : String} {body body' other other' : Program σ Unit}
    (h : b.isWriting = true →
      body'.run m (b.written (.opening cond)) = body.run m (b.written (.opening cond)))
    (hother : Outcome.Before (branch (.opening cond) body.run m b) fun _ m b =>
      b.isWriting = true → other'.run m (b.written .otherwise) =
        other.run m (b.written .otherwise)) :
    (Program.choose cond body' other' .pure).run m b =
      (Program.choose cond body other .pure).run m b := by
  cases hw : b.isWriting with
  | false => rw [run_choose_of_not_isWriting hw, run_choose_of_not_isWriting hw]
  | true =>
    rw [run_choose_of_isWriting hw, run_choose_of_isWriting hw, branch_congr h]
    exact congrArg _ (Outcome.andThen_congr hother fun _ _ _ => branch_congr)

theorem run_build_congr {wanted : List Var} {main main' : Fragment → Program σ Expr}
    (h : b.building = false → ∀ uniforms, Builder.collectUniforms wanted = .ok uniforms →
      (main' ⟨uniforms⟩).run m (b.begun uniforms) = (main ⟨uniforms⟩).run m (b.begun uniforms)) :
    (Program.build wanted main' .pure).run m b = (Program.build wanted main .pure).run m b := by
  cases hb : b.building with
  | true => rw [run_build_of_building hb, run_build_of_building hb]
  | false =>
    rw [run_build_of_not_building hb, run_build_of_not_building hb]
    cases hu : Builder.collectUniforms wanted with
    | error f => rfl
    | ok uniforms => exact congrArg Outcome.settle (h hb uniforms hu)

end Bodies

/-! ## Runs -/

/-- **A run that meets no abort is the run of a program that has none.** -/
theorem run_withoutAborts {p : Program σ α} {m : σ} {b : Builder} (h : p.Completes m b) :
    p.withoutAborts.run m b = p.run m b := by
  induction p generalizing m b with
  | pure _ | fail _ => rfl
  | abort => exact h.elim
  | own act k ih => exact ih _ h
  | look k ih => exact ih _ h
  | perform op k ih =>
    rw [withoutAborts, run_perform op fun r => (k r).withoutAborts, run_perform op k]
    exact Outcome.andThen_congr h fun r _ _ => ih r
  | emit line k ih =>
    rw [withoutAborts, run_emit line fun r => (k r).withoutAborts, run_emit line k]
    exact Outcome.andThen_congr h fun r _ _ => ih r
  | define s body k ihb ih =>
    rw [withoutAborts, run_define s _ fun r => (k r).withoutAborts, run_define s body k,
      run_define_congr fun hw hd => ihb _ (h.1 hw hd)]
    exact Outcome.andThen_congr h.2 fun r _ _ => ih r
  | when cond body k ihb ih =>
    rw [withoutAborts, run_when cond _ fun r => (k r).withoutAborts, run_when cond body k,
      run_when_congr fun hw => ihb (h.1 hw)]
    exact Outcome.andThen_congr h.2 fun r _ _ => ih r
  | choose cond body other k ihb iho ih =>
    obtain ⟨hbody, hother, hrest⟩ := h
    have hsecond : Outcome.Before (branch (.opening cond) body.run m b) fun _ m b =>
        b.isWriting = true → other.withoutAborts.run m (b.written .otherwise) =
          other.run m (b.written .otherwise) := by
      generalize branch (.opening cond) body.run m b = first at hother
      obtain ⟨_ | _ | _, m₁, b₁⟩ := first
      · exact fun hw => iho (hother hw)
      · exact trivial
      · exact trivial
    rw [withoutAborts, run_choose cond _ _ fun r => (k r).withoutAborts,
      run_choose cond body other k, run_choose_congr (fun hw => ihb (hbody hw)) hsecond]
    exact Outcome.andThen_congr hrest fun r _ _ => ih r
  | build wanted main k ihm ih =>
    rw [withoutAborts, run_build wanted _ fun r => (k r).withoutAborts, run_build wanted main k,
      run_build_congr fun hb uniforms hu => ihm _ (h.1 hb uniforms hu)]
    exact Outcome.andThen_congr h.2 fun r _ _ => ih r
  | fresh policy body k ihb ih =>
    have hcall : (Program.fresh policy body.withoutAborts .pure).run m b =
        (Program.fresh policy body .pure).run m b := by
      simp only [run, ihb h.1]
    rw [withoutAborts, run_fresh policy _ fun r => (k r).withoutAborts, run_fresh policy body k,
      hcall]
    exact Outcome.andThen_congr h.2 fun r _ _ => ih r
  | contain body k ihb ih =>
    have hcall : (Program.contain body.withoutAborts .pure).run m b =
        (Program.contain body .pure).run m b := by
      simp only [run, ihb h.1]
    rw [withoutAborts, run_contain _ fun r => (k r).withoutAborts, run_contain body k, hcall]
    exact Outcome.andThen_congr h.2 fun r _ _ => ih r

/-- A program without aborts has no run that meets one. -/
theorem AbortFree.completes {p : Program σ α} (hp : p.AbortFree) (m : σ) (b : Builder) :
    p.Completes m b := by
  induction p generalizing m b with
  | pure _ | fail _ => exact trivial
  | abort => exact hp
  | own act k ih => exact ih _ (hp _) _ b
  | look k ih => exact ih _ (hp _) m b
  | perform op k ih => exact Outcome.before_of_forall fun r m b => ih r (hp r) m b
  | emit line k ih => exact Outcome.before_of_forall fun r m b => ih r (hp r) m b
  | define s body k ihb ih =>
    exact ⟨fun _ _ => ihb _ (hp.1 _) m _,
      Outcome.before_of_forall fun r m b => ih r (hp.2 r) m b⟩
  | when cond body k ihb ih =>
    exact ⟨fun _ => ihb hp.1 m _, Outcome.before_of_forall fun r m b => ih r (hp.2 r) m b⟩
  | choose cond body other k ihb iho ih =>
    exact ⟨fun _ => ihb hp.1 m _, Outcome.before_of_forall fun _ m b _ => iho hp.2.1 m _,
      Outcome.before_of_forall fun r m b => ih r (hp.2.2 r) m b⟩
  | build wanted main k ihm ih =>
    exact ⟨fun _ _ _ => ihm _ (hp.1 _) m _,
      Outcome.before_of_forall fun r m b => ih r (hp.2 r) m b⟩
  | fresh policy body k ihb ih =>
    exact ⟨ihb hp.1 m _, Outcome.before_of_forall fun r m b => ih r (hp.2 r) m b⟩
  | contain body k ihb ih =>
    exact ⟨ihb hp.1 m b, Outcome.before_of_forall fun r m b => ih r (hp.2 r) m b⟩

/-- A run that meets no abort ends as its program means. -/
theorem Completes.holds {p : Program σ α} {m : σ} {b : Builder} (h : p.Completes m b)
    (hb : b.InPhase) : (p.meaning b.policy b.depth b.lines m b.next).Holds b (p.run m b) := by
  have hmeaning := hasMeaning_of_abortFree _ p.abortFree_withoutAborts m b hb
  rwa [meaning_withoutAborts, run_withoutAborts h] at hmeaning

/-- **The shader of a build is what its main body means**, if the run of the main body meets no
abort. -/
theorem build_meaning_of_completes {wanted : List Var} {main : Fragment → Program σ Expr}
    {b : Builder} (hb : b.building = false) (m : σ)
    (hmain : ∀ uniforms, Builder.collectUniforms wanted = .ok uniforms →
      (main ⟨uniforms⟩).Completes m (b.begun uniforms)) :
    match Builder.collectUniforms wanted with
    | .error f => ∃ b', (Program.build wanted main .pure).run m b = (.done (.error f), m, b') ∧
        b'.next = b.policy.start b.next ∧ b'.building = false ∧ b'.scopes = [] ∧
        b'.policy = b.policy
    | .ok uniforms =>
      let r := (main ⟨uniforms⟩).meaning b.policy 1 [] m (b.policy.start b.next)
      ∃ b', (Program.build wanted main .pure).run m b = (.done (r.output uniforms), r.memory, b') ∧
        b'.next = r.next ∧ b'.building = false ∧ b'.scopes = [] ∧ b'.policy = b.policy := by
  rw [run_build_of_not_building hb]
  cases hu : Builder.collectUniforms wanted with
  | error f => exact ⟨_, rfl, rfl, rfl, rfl, rfl⟩
  | ok uniforms =>
    have hfree : ∀ f, (main f).withoutAborts.HasMeaning := fun f =>
      hasMeaning_of_abortFree _ (main f).abortFree_withoutAborts
    have hsettle := settle_main (b := b) hfree uniforms m
    rwa [meaning_withoutAborts, run_withoutAborts (hmain uniforms hu)] at hsettle

/-- **Scopes stay in step** in a run that meets no abort, on any builder that has arisen. The run comes
to its end at the depth it began at. If the program makes up no failures of scopes out of step, it
does not fail with one. -/
theorem scopes_in_step_of_completes {p : Program σ α} {m : σ} {b : Builder} (hb : b.Arises)
    (h : p.Completes m b) :
    (p.run m b).1 ≠ .aborted ∧ (p.run m b).2.2.depth = b.depth ∧
      ∀ (I : σ → Prop) (A : α → Prop) (f : Failure), p.withoutAborts.Honest I A → I m →
        (p.run m b).1 = .failed f → f.isUnbalanced = false := by
  obtain ⟨b', hrun, hl⟩ := h.holds hb.sound.inPhase
  rw [hrun]
  refine ⟨?_, hl.depth, fun I A f hhonest hm hf => ?_⟩
  · cases (p.meaning b.policy b.depth b.lines m b.next).outcome <;> simp [Outcome.ofExcept]
  · have hfair := (hhonest.fair b.policy b.depth b.lines hm b.next).outcome
    rw [meaning_withoutAborts] at hfair
    generalize (p.meaning b.policy b.depth b.lines m b.next).outcome = outcome at hf hfair
    cases outcome with
    | ok a => cases hf
    | error f₀ =>
      cases hf
      exact hfair

/-- The function in `waved` gives up unless it is given one argument, and it always is. -/
example : (∀ f, ¬ (waved f).AbortFree) ∧ (waved ⟨[⟨"u_time", .float⟩]⟩).Completes ()
    ((Builder.new .perBuild).begun [⟨"u_time", .float⟩]) :=
  ⟨fun _ h => h.1 [], fun _ _ => trivial, trivial⟩

end Program

end Shader
