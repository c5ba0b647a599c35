import Shader.Proofs.Moments

/-!
# Scopes stay in step

A function or a build that comes to its end checks that the scopes are as it left them. Only a program
that was abandoned half way can leave others open, so without that the check never fails.

* `depth_run_of_abortFree`: a program that is not abandoned ends at the depth it began at;
* `Failure.isUnbalanced`: the failures of that check; `Program.Honest`: the programs that do not make
  them up; **`Honest.fair`**: they never come to one;
* **`scopes_in_step`**: the depth of a builder before, in the middle of and after operations.
-/

namespace Shader

variable {σ α β : Type}

namespace Program

/-! ## Runs that are not abandoned -/

/-- A program that is not abandoned comes to its end at the depth it was started at. -/
theorem depth_run_of_abortFree {p : Program σ α} (hp : p.AbortFree) {b : Builder} (hb : b.InPhase)
    (m : σ) : (p.run m b).1 ≠ .aborted ∧ (p.run m b).2.2.depth = b.depth := by
  obtain ⟨b', hrun, hl⟩ := hasMeaning_of_abortFree p hp m b hb
  rw [hrun]
  refine ⟨?_, hl.depth⟩
  cases (p.meaning b.policy b.depth b.lines m b.next).outcome <;> simp [Outcome.ofExcept]

end Program

/-! ## Failures of scopes out of step -/

/-- Whether a failure says that a function or a build came to its end at another depth than it
should. -/
def Failure.isUnbalanced (f : Failure) : Bool :=
  match f.cause with
  | .reentrancy (.scopesLeft _) | .reentrancy (.unbalanced _ _) => true
  | _ => false

/-- Answers as they are wanted, or failures for another reason than scopes out of step. -/
def IsFair (A : α → Prop) : Except Failure α → Prop
  | .ok a => A a
  | .error f => f.isUnbalanced = false

/-- Any answer that is no failure of scopes out of step. -/
abbrev IsAnswer (r : Except Failure α) : Prop := IsFair (fun _ => True) r

namespace Program

/-- Programs that do not make up failures of scopes out of step: as long as no operation answers with
one and the memory keeps none, they fail with none. The answers of such a program have the property
`A`, its memory has the property `I`. -/
inductive Honest (I : σ → Prop) : {α : Type} → (A : α → Prop) → Program σ α → Prop
  | pure {α : Type} {A : α → Prop} {a : α} (ha : A a) : Honest I A (.pure a)
  | fail {α : Type} {A : α → Prop} {f : Failure} (hf : f.isUnbalanced = false) :
    Honest I A (.fail f)
  | own {α β : Type} {A : α → Prop} {B : β → Prop} {act : σ → β × σ} {k : β → Program σ α}
    (hact : ∀ m, I m → B (act m).1 ∧ I (act m).2) (hk : ∀ x, B x → Honest I A (k x)) :
    Honest I A (.own act k)
  | look {α : Type} {A : α → Prop} {k : View → Program σ α} (hk : ∀ v, Honest I A (k v)) :
    Honest I A (.look k)
  | perform {α : Type} {A : α → Prop} {op : Operation} {k : Except Failure Expr → Program σ α}
    (hk : ∀ r, IsAnswer r → Honest I A (k r)) : Honest I A (.perform op k)
  | emit {α : Type} {A : α → Prop} {text : String} {k : Except Failure Unit → Program σ α}
    (hk : ∀ r, IsAnswer r → Honest I A (k r)) : Honest I A (.emit text k)
  | define {α : Type} {A : α → Prop} {s : Signature} {body : List Expr → Program σ Expr}
    {k : Except Failure Callee → Program σ α} (hbody : ∀ args, Honest I (fun _ => True) (body args))
    (hk : ∀ r, IsAnswer r → Honest I A (k r)) : Honest I A (.define s body k)
  | when {α : Type} {A : α → Prop} {cond : String} {body : Program σ Unit}
    {k : Except Failure Unit → Program σ α} (hbody : Honest I (fun _ => True) body)
    (hk : ∀ r, IsAnswer r → Honest I A (k r)) : Honest I A (.when cond body k)
  | choose {α : Type} {A : α → Prop} {cond : String} {body other : Program σ Unit}
    {k : Except Failure Unit → Program σ α} (hbody : Honest I (fun _ => True) body)
    (hother : Honest I (fun _ => True) other) (hk : ∀ r, IsAnswer r → Honest I A (k r)) :
    Honest I A (.choose cond body other k)
  | build {α : Type} {A : α → Prop} {wanted : List Var} {main : Fragment → Program σ Expr}
    {k : Except Failure Output → Program σ α} (hmain : ∀ f, Honest I (fun _ => True) (main f))
    (hk : ∀ r, IsAnswer r → Honest I A (k r)) : Honest I A (.build wanted main k)
  | fresh {α β : Type} {A : α → Prop} {B : β → Prop} {policy : CounterPolicy} {body : Program σ β}
    {k : Except Failure β → Program σ α} (hbody : Honest I B body)
    (hk : ∀ r, IsFair B r → Honest I A (k r)) : Honest I A (.fresh policy body k)
  | contain {α β : Type} {A : α → Prop} {B : β → Prop} {body : Program σ β}
    {k : Outcome β → Program σ α} (hbody : Honest I B body)
    (hk : ∀ r, IsFair B r → Honest I A (k (.ofExcept r))) : Honest I A (.contain body k)

end Program

/-! ### Operations -/

section Checks

theorem isAnswer_checkBeside (o : Operand) (operation : String) (t : Ty) :
    IsAnswer (o.checkBeside operation t) := by
  unfold Operand.checkBeside
  split
  · split
    · trivial
    · rfl
  · trivial

theorem isAnswer_checkArguments (operation : String) (os : List Operand) (ts : List Ty) :
    IsAnswer (checkArguments operation os ts) := by
  induction os generalizing ts with
  | nil => trivial
  | cons o os ih =>
    cases ts with
    | nil => trivial
    | cons t ts =>
      simp only [checkArguments, Operand.checkParam]
      split
      · exact ih ts
      · rfl

/-- A type rule never fails for scopes out of step. -/
theorem isAnswer_check (op : Operation) : IsAnswer op.check := by
  cases op with
  | arithmetic op a b => exact isAnswer_checkBeside b _ _
  | intrinsic fn a =>
    simp only [Operation.check]
    split
    · trivial
    · rfl
  | step a edge => exact isAnswer_checkBeside edge _ _
  | smoothstep a edge₀ edge₁ =>
    have h₀ := isAnswer_checkBeside edge₀ "smoothstep" a.ty
    simp only [Operation.check]
    cases he : edge₀.checkBeside "smoothstep" a.ty with
    | error f =>
      rw [he] at h₀
      exact h₀
    | ok u => exact isAnswer_checkBeside edge₁ _ _
  | channel c a =>
    simp only [Operation.check]
    split
    · trivial
    · rfl
  | call f args =>
    simp only [Operation.check]
    split
    · exact isAnswer_checkArguments _ _ _
    · rfl

theorem isAnswer_addUniform (declared : List Var) (v : Var) :
    IsAnswer (Builder.addUniform declared v) := by
  unfold Builder.addUniform
  split
  · trivial
  · split
    · trivial
    · rfl

theorem isAnswer_collectUniforms (wanted : List Var) :
    IsAnswer (Builder.collectUniforms wanted) := by
  suffices h : ∀ declared, IsAnswer (wanted.foldlM Builder.addUniform declared) from h []
  induction wanted with
  | nil => exact fun _ => trivial
  | cons v vs ih =>
    intro declared
    rw [List.foldlM_cons]
    have hadd := isAnswer_addUniform declared v
    cases he : Builder.addUniform declared v with
    | error f =>
      rw [he] at hadd
      exact hadd
    | ok declared' => exact ih declared'

end Checks

namespace Effect

variable {I : σ → Prop} {A : α → Prop} {B : β → Prop} {m : σ} {level next : Nat}

/-- An effect with a fair outcome, which keeps the property of the memory. -/
structure Fair (I : σ → Prop) (A : α → Prop) (r : Effect σ α) : Prop where
  outcome : IsFair A r.outcome
  memory : I r.memory

theorem fair_refused {f : Failure} (hf : f.isUnbalanced = false) (hm : I m) :
    (refused f m next : Effect σ α).Fair I A := ⟨hf, hm⟩

theorem Fair.goOn {c : Effect σ β} (hc : c.Fair I B) (seen : List Line)
    {k : Except Failure β → List Line → σ → Nat → Effect σ α}
    (hk : ∀ r seen m n, IsFair B r → I m → (k r seen m n).Fair I A) : (c.goOn seen k).Fair I A :=
  have h := hk c.outcome (seen ++ c.lines) c.memory c.next hc.outcome hc.memory
  ⟨h.outcome, h.memory⟩

theorem fair_performed (op : Operation) (hm : I m) :
    (performed op level m next).Fair I fun _ => True := by
  have hop := isAnswer_check op
  unfold performed
  split
  case h_1 f he =>
    rw [he] at hop
    exact fair_refused hop hm
  case h_2 =>
    split
    · exact fair_refused rfl hm
    · exact ⟨trivial, hm⟩

theorem fair_emitted (text : String) (hm : I m) :
    (emitted text level m next).Fair I fun _ => True := by
  unfold emitted
  split
  · exact fair_refused rfl hm
  · exact ⟨trivial, hm⟩

theorem isAnswer_returned (s : Signature) {r : Except Failure Expr} (hr : IsAnswer r) :
    IsAnswer (returned s r) := by
  cases r with
  | error f => exact hr
  | ok value =>
    unfold returned Except.bind
    dsimp only
    split
    · trivial
    · rfl

theorem fair_defined (s : Signature) {body : Effect σ Expr} (hm : I m)
    (hbody : body.Fair I fun _ => True) :
    (defined s level m next body).Fair I fun _ => True := by
  have hr := isAnswer_returned s hbody.outcome
  unfold defined
  split
  · exact fair_refused rfl hm
  split
  · exact fair_refused rfl hm
  split
  case h_1 => exact ⟨trivial, hbody.memory⟩
  case h_2 f he =>
    rw [he] at hr
    exact ⟨hr, hbody.memory⟩

theorem fair_conditional (cond : String) {body : Effect σ Unit} (hm : I m)
    (hbody : body.Fair I fun _ => True) :
    (conditional cond level m next body).Fair I fun _ => True := by
  unfold conditional
  split
  · exact fair_refused rfl hm
  split
  · exact ⟨hbody.outcome, hbody.memory⟩
  · exact ⟨hbody.outcome, hbody.memory⟩

theorem fair_alternative (cond : String) {body other : Effect σ Unit} (hm : I m)
    (hbody : body.Fair I fun _ => True)
    (hother : body.outcome = .ok () → other.Fair I fun _ => True) :
    (alternative cond level m next body other).Fair I fun _ => True := by
  unfold alternative
  split
  · exact fair_refused rfl hm
  split
  · exact ⟨hbody.outcome, hbody.memory⟩
  case h_2 he =>
    have h := hother he
    dsimp only
    split
    · exact ⟨h.outcome, h.memory⟩
    · exact ⟨h.outcome, h.memory⟩

theorem fair_built (wanted : List Var) {start : Nat} {main : List Var → Effect σ Expr} (hm : I m)
    (hmain : ∀ us, (main us).Fair I fun _ => True) :
    (built wanted level m next start main).Fair I fun _ => True := by
  have hu := isAnswer_collectUniforms wanted
  unfold built
  split
  · split
    case h_1 f he =>
      rw [he] at hu
      exact fair_refused hu hm
    case h_2 us he =>
      refine ⟨?_, (hmain us).memory⟩
      have h := (hmain us).outcome
      dsimp only [output]
      cases ho : (main us).outcome with
      | ok value => trivial
      | error f =>
        rw [ho] at h
        exact h
  · exact fair_refused rfl hm

end Effect

namespace Program

/-- **Scopes are never out of step** as far as a meaning goes. -/
theorem Honest.fair {I : σ → Prop} {A : α → Prop} {p : Program σ α} (h : p.Honest I A)
    (policy : CounterPolicy) (level : Nat) (seen : List Line) {m : σ} (hm : I m) (next : Nat) :
    (p.meaning policy level seen m next).Fair I A := by
  induction h generalizing policy level seen m next with
  | pure ha => exact ⟨ha, hm⟩
  | fail hf => exact ⟨hf, hm⟩
  | own hact hk ih => exact ih _ (hact m hm).1 policy level seen (hact m hm).2 next
  | look hk ih => exact ih _ policy level seen hm next
  | @perform _ _ op k hk ih =>
    exact (Effect.fair_performed op hm).goOn seen fun r seen m n hr hm => ih r hr _ _ seen hm n
  | @emit _ _ text k hk ih =>
    exact (Effect.fair_emitted text hm).goOn seen fun r seen m n hr hm => ih r hr _ _ seen hm n
  | @define _ _ s body k hbody hk ihb ih =>
    exact (Effect.fair_defined s hm (ihb _ _ _ _ hm _)).goOn seen
      fun r seen m n hr hm => ih r hr _ _ seen hm n
  | @when _ _ cond body k hbody hk ihb ih =>
    exact (Effect.fair_conditional cond hm (ihb _ _ _ hm _)).goOn seen
      fun r seen m n hr hm => ih r hr _ _ seen hm n
  | @choose _ _ cond body other k hbody hother hk ihb iho ih =>
    have hfirst := ihb policy level (seen ++ [.opening cond]) hm next
    exact (Effect.fair_alternative cond hm hfirst fun _ => iho _ _ _ hfirst.memory _).goOn seen
      fun r seen m n hr hm => ih r hr _ _ seen hm n
  | @build _ _ wanted main k hmain hk ihm ih =>
    exact (Effect.fair_built wanted hm fun us => ihm _ _ _ _ hm _).goOn seen
      fun r seen m n hr hm => ih r hr _ _ seen hm n
  | @fresh _ _ _ _ policy' body k hbody hk ihb ih =>
    have hb := ihb policy' 0 [] hm 0
    exact ih _ hb.outcome policy level seen hb.memory next
  | contain hbody hk ihb ih =>
    exact (ihb policy level seen hm next).goOn seen fun r seen m n hr hm => ih r hr _ _ seen hm n

/-! ## The depth of builders -/

theorem run_build_cases {wanted : List Var} {main : Fragment → Program σ Expr} {m m' : σ}
    {b b' : Builder} {r : Except Failure Output}
    (h : (Program.build wanted main .pure).run m b = (.done r, m', b')) :
    b.building = true ∧ r = .error (.ofMisuse .nestedBuild) ∧ b' = b ∨
      b.building = false ∧ b'.building = false ∧ b'.depth = 0 := by
  cases hb : b.building with
  | true =>
    rw [run_build_of_building hb] at h
    cases h
    exact .inl ⟨rfl, rfl, rfl⟩
  | false =>
    rw [run_build_of_not_building hb] at h
    refine .inr ⟨rfl, ?_⟩
    cases hu : Builder.collectUniforms wanted with
    | error f =>
      rw [hu] at h
      cases h
      exact ⟨rfl, rfl⟩
    | ok uniforms =>
      rw [hu] at h
      dsimp only at h
      generalize (main ⟨uniforms⟩).run m (b.begun uniforms) = ended at h
      obtain ⟨value | f | _, m₁, b₁⟩ := ended
      · cases h
        exact ⟨rfl, rfl⟩
      · cases h
        exact ⟨rfl, rfl⟩
      · cases h

/-- **Scopes stay in step.**

* At every moment of every run a builder has scopes open exactly while it builds, and at most 64.
* A build that comes to its end, well or not, leaves the builder idle without scopes, unless it was
  refused because another build was running.
* A program that is not abandoned ends at the depth it began at, on any builder that has arisen, even
  one that was left with scopes open. It never fails for scopes out of step.
* A build answers with a shader, and a definition with a function, only if its body has answered with
  no other scope open than its own. -/
theorem scopes_in_step :
    (∀ b : Builder, b.Arises → (b.building = true ↔ 1 ≤ b.depth) ∧ b.depth ≤ 64) ∧
    (∀ {σ : Type} (wanted : List Var) (main : Fragment → Program σ Expr) (m m' : σ)
      (b b' : Builder) (r : Except Failure Output),
      (Program.build wanted main .pure).run m b = (.done r, m', b') →
      b.building = true ∧ r = .error (.ofMisuse .nestedBuild) ∧ b' = b ∨
        b.building = false ∧ b'.building = false ∧ b'.depth = 0) ∧
    (∀ {σ α : Type} (p : Program σ α) (m : σ) (b : Builder), b.Arises → p.AbortFree →
      (p.run m b).1 ≠ .aborted ∧ (p.run m b).2.2.depth = b.depth) ∧
    (∀ {σ α : Type} (I : σ → Prop) (A : α → Prop) (p : Program σ α) (m : σ) (b : Builder)
      (f : Failure), b.Arises → p.AbortFree → p.Honest I A → I m → (p.run m b).1 = .failed f →
      (∀ depth, f.cause ≠ .reentrancy (.scopesLeft depth)) ∧
        ∀ found opened, f.cause ≠ .reentrancy (.unbalanced found opened)) ∧
    (∀ {σ : Type} (wanted : List Var) (main : Fragment → Program σ Expr) (m m' : σ)
      (b b' : Builder) (out : Output),
      (Program.build wanted main .pure).run m b = (.done (.ok out), m', b') →
      ∃ uniforms value b₁, Builder.collectUniforms wanted = .ok uniforms ∧
        (main ⟨uniforms⟩).run m (b.begun uniforms) = (.done value, m', b₁) ∧ b₁.depth = 1) ∧
    ∀ {σ : Type} (s : Signature) (body : List Expr → Program σ Expr) (m m' : σ) (b b' : Builder)
      (f : Callee), (Program.define s body .pure).run m b = (.done (.ok f), m', b') →
      ∃ value b₁, (body (s.params.map (·.expr))).run m b.opened = (.done value, m', b₁) ∧
        b₁.depth = b.opened.depth := by
  refine ⟨fun b hb => ⟨hb.sound.inPhase.building_iff, hb.sound.depth_le⟩,
    fun _ _ _ _ _ _ _ h => run_build_cases h,
    fun p m b hb hp => depth_run_of_abortFree hp hb.sound.inPhase m, ?_, ?_, ?_⟩
  · intro σ α I A p m b f hb hp hhonest hm h
    obtain ⟨b', hrun, -⟩ := hasMeaning_of_abortFree p hp m b hb.sound.inPhase
    have hfair := (hhonest.fair b.policy b.depth b.lines hm b.next).outcome
    rw [hrun] at h
    generalize (p.meaning b.policy b.depth b.lines m b.next).outcome = outcome at h hfair
    have hf : f.isUnbalanced = false := by
      cases outcome with
      | ok a => cases h
      | error f₀ =>
        cases h
        exact hfair
    refine ⟨fun depth hc => ?_, fun found opened hc => ?_⟩
    · simp [Failure.isUnbalanced, hc] at hf
    · simp [Failure.isUnbalanced, hc] at hf
  · intro σ wanted main m m' b b' out h
    obtain ⟨-, uniforms, value, b₁, hu, hmain, -, hd, -⟩ := run_build_eq_ok h
    exact ⟨uniforms, value, b₁, hu, hmain, hd⟩
  · intro σ s body m m' b b' f h
    obtain ⟨-, -, value, b₁, hbody, hd, -⟩ := run_define_eq_ok h
    exact ⟨value, b₁, hbody, hd⟩

/-- A function without parameters. -/
def oneSignature : Signature := ⟨"one", .float, []⟩

/-- A body that answers a number. -/
def one : Program Unit Expr := .pure ⟨"1.0", .float⟩

/-- A conditional that fails after a function was defined in it. -/
def failingBlock : Program Unit Unit :=
  .when "t > 0.0"
    (.define oneSignature (fun _ => one) fun _ => .fail ⟨.unknownUniform "k", none⟩) ofExcept

/-- A main body that goes on after the definition of a function was abandoned. -/
def leavingOpen : Fragment → Program Unit Expr := fun _ =>
  .contain (.define oneSignature (fun _ => .abort) ofExcept) fun _ => one

theorem honest_failingBlock : failingBlock.Honest (fun _ => True) fun _ => True := by
  refine .when (.define (fun _ => .pure trivial) fun _ _ => .fail rfl) fun r hr => ?_
  cases r with
  | ok u => exact .pure trivial
  | error f => exact .fail hr

theorem abortFree_failingBlock : failingBlock.AbortFree := by
  refine ⟨⟨fun _ => trivial, fun _ => trivial⟩, fun r => ?_⟩
  cases r <;> trivial

/-- The builder at the start of a build arises, in the main body of it. -/
theorem arises_begun (policy : CounterPolicy) : ((Builder.new policy).begun []).Arises := by
  have hnone : Builder.collectUniforms [] = .ok [] := rfl
  have hmain : (Program.build [] (fun _ => one) .pure : Program Unit _).Meets ()
      (.new policy) ((Builder.new policy).begun []) :=
    .inBuild rfl hnone .start
  exact (Builder.Arises.new policy).meets hmain

/-- The scope of the abandoned function is left over, so the build fails, and the builder is idle.
The failing conditional is back at the depth of the main body, and its failure is its own. -/
theorem scopes_in_step_leavingOpen :
    (∃ b', (Program.build [] leavingOpen .pure).run () (.new .perBuild) =
      (.done (.error (.ofMisuse (.scopesLeft 2))), (), b') ∧ b'.building = false ∧ b'.depth = 0) ∧
    (let b := (Builder.new .perBuild).begun [];
      (b.building = true ↔ 1 ≤ b.depth) ∧ b.depth ≤ 64 ∧
      (failingBlock.run () b).1 = .failed ⟨.unknownUniform "k", none⟩ ∧
      (failingBlock.run () b).2.2.depth = b.depth ∧
      Cause.unknownUniform "k" ≠ .reentrancy (.scopesLeft 2) ∧
      ∃ b', (Program.define oneSignature (fun _ => one) .pure).run () b =
          (.done (.ok oneSignature.callee), (), b') ∧
        ∃ value b₁, one.run () b.opened = (.done value, (), b₁) ∧
          b₁.depth = b.opened.depth) ∧
    ∃ b', (Program.build [] (fun _ => one) .pure).run () (.new .perBuild) =
        (.done (.ok ⟨[], [], [.color ⟨"1.0", .float⟩]⟩), (), b') ∧
      ∃ value b₁, one.run () ((Builder.new .perBuild).begun []) =
          (.done value, (), b₁) ∧ b₁.depth = 1 := by
  obtain ⟨hmoment, hbuild, hend, hfair, hshader, hfunction⟩ := scopes_in_step
  refine ⟨?_, ?_, ?_⟩
  · have hrun : (Program.build [] leavingOpen .pure).run () (.new .perBuild) =
        (.done (.error (.ofMisuse (.scopesLeft 2))), (), _) := rfl
    obtain ⟨hb, -⟩ | ⟨-, hidle⟩ := hbuild [] leavingOpen () () _ _ _ hrun
    · cases hb
    · exact ⟨_, hrun, hidle⟩
  · intro b
    have hb : b.Arises := arises_begun .perBuild
    have hfailed : (failingBlock.run () b).1 = .failed ⟨.unknownUniform "k", none⟩ := rfl
    have hdefine : (Program.define oneSignature (fun _ => one) .pure).run () b =
        (.done (.ok oneSignature.callee), (), _) := rfl
    refine ⟨(hmoment b hb).1, (hmoment b hb).2, hfailed, ?_, ?_, _, hdefine, ?_⟩
    · exact (hend failingBlock () b hb abortFree_failingBlock).2
    · exact (hfair _ _ failingBlock () b _ hb abortFree_failingBlock honest_failingBlock trivial
        hfailed).1 2
    · exact hfunction _ _ () () b _ _ hdefine
  · have hrun : (Program.build [] (fun _ => one) .pure).run () (.new .perBuild) =
        (.done (.ok ⟨[], [], [.color ⟨"1.0", .float⟩]⟩), (), _) := rfl
    obtain ⟨_, value, b₁, hu, hmain, hd⟩ := hshader [] _ () () _ _ _ hrun
    cases hu
    exact ⟨_, hrun, value, b₁, hmain, hd⟩

end Program

end Shader
