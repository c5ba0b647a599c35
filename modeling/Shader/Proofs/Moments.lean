import Shader.Proofs.Simulation
import Shader.Proofs.Steps

/-!
# The moments of a run

A run is more than its end: bodies are run in the middle of it, and what they can see is a builder at
some moment. Every moment is reached by steps, so what steps keep holds at all of them.

* `Program.Meets`: the builders at the moments of a run; **`Meets.keeps`**: what steps keep holds of
  all of them;
* `Builder.Arises`: the builders that programs come to;
* `Builder.Sound`: scopes are open exactly while a build runs, and never more than allowed;
  **`Arises.sound`**: so it is for every builder that arises.
-/

namespace Shader

variable {σ α β : Type}

/-! ## Moments -/

namespace Program

/-- While a program runs, started with a memory and a builder `b`, there is a moment at which the
builder it works on is `b'`. -/
inductive Meets : {α : Type} → Program σ α → σ → Builder → Builder → Prop
  /-- At the start. -/
  | start {α : Type} {p : Program σ α} {m : σ} {b : Builder} : Meets p m b b
  /-- After a part of the program has answered. -/
  | next {α β : Type} {p : Program σ α} {g : α → Program σ β} {m m₁ : σ} {b b₁ b' : Builder} {x : α}
    (hp : p.run m b = (.done x, m₁, b₁)) (h : Meets (g x) m₁ b₁ b') : Meets (p.bind g) m b b'
  | inFunction {α : Type} {s : Signature} {body : List Expr → Program σ Expr}
    {k : Except Failure Callee → Program σ α} {m : σ} {b b' : Builder} (hw : b.isWriting = true)
    (hd : b.depth < maxDepth) (h : Meets (body (s.params.map (·.expr))) m b.opened b') :
    Meets (.define s body k) m b b'
  | inBlock {α : Type} {cond : String} {body : Program σ Unit}
    {k : Except Failure Unit → Program σ α} {m : σ} {b b' : Builder} (hw : b.isWriting = true)
    (h : Meets body m (b.written (.opening cond)) b') : Meets (.when cond body k) m b b'
  | inFirst {α : Type} {cond : String} {body other : Program σ Unit}
    {k : Except Failure Unit → Program σ α} {m : σ} {b b' : Builder} (hw : b.isWriting = true)
    (h : Meets body m (b.written (.opening cond)) b') : Meets (.choose cond body other k) m b b'
  | inSecond {α : Type} {cond : String} {body other : Program σ Unit}
    {k : Except Failure Unit → Program σ α} {m m₁ : σ} {b b₁ b' : Builder}
    (hfirst : branch (.opening cond) body.run m b = (.done (), m₁, b₁)) (hw : b₁.isWriting = true)
    (h : Meets other m₁ (b₁.written .otherwise) b') : Meets (.choose cond body other k) m b b'
  | inBuild {α : Type} {wanted uniforms : List Var} {main : Fragment → Program σ Expr}
    {k : Except Failure Output → Program σ α} {m : σ} {b b' : Builder} (hb : b.building = false)
    (hu : Builder.collectUniforms wanted = .ok uniforms)
    (h : Meets (main ⟨uniforms⟩) m (b.begun uniforms) b') : Meets (.build wanted main k) m b b'
  /-- On another builder, which is new. -/
  | inFresh {α β : Type} {policy : CounterPolicy} {body : Program σ β}
    {k : Except Failure β → Program σ α} {m : σ} {b b' : Builder}
    (h : Meets body m (.new policy) b') : Meets (.fresh policy body k) m b b'
  | inContained {α β : Type} {body : Program σ β} {k : Outcome β → Program σ α} {m : σ}
    {b b' : Builder} (h : Meets body m b b') : Meets (.contain body k) m b b'

/-- **What holds of new builders and is kept by every step holds at every moment of a run** that
starts with it. -/
theorem Meets.keeps {P : Builder → Prop} (hnew : ∀ policy, P (.new policy))
    (hstep : ∀ {b b'}, Builder.Step b b' → P b → P b') {p : Program σ α} {m : σ} {b b' : Builder}
    (h : p.Meets m b b') (hb : P b) : P b' := by
  induction h with
  | start => exact hb
  | @next _ _ p _ m _ b _ _ _ hp _ ih =>
    have hreach := p.run_reaches m b
    rw [hp] at hreach
    exact ih (hreach.keeps hstep hb)
  | inFunction hw hd _ ih => exact ih (hstep (.enter hw hd) hb)
  | inBlock hw _ ih => exact ih (hstep (.write hw rfl) hb)
  | inFirst hw _ ih => exact ih (hstep (.write hw rfl) hb)
  | @inSecond _ cond body _ _ m _ b _ _ hfirst hw _ ih =>
    have hsteps : Steps (branch (.opening cond) body.run) := steps_branch body.run_reaches rfl
    have hreach := hsteps m b
    rw [hfirst] at hreach
    exact ih (hstep (.write hw rfl) (hreach.keeps hstep hb))
  | inBuild hbuild hu _ ih => exact ih (hstep (.start hbuild hu) hb)
  | inFresh _ ih => exact ih (hnew _)
  | inContained _ ih => exact ih hb

/-- The end of a run is a moment of a run, however it came. -/
theorem meets_contained (p : Program σ α) (m : σ) (b : Builder) :
    (Program.contain p .pure).Meets m b (p.run m b).2.2 :=
  .next (p := .contain p .pure) (g := .pure) rfl .start

end Program

namespace Builder

/-- The builders that programs come to: new ones, and those at any moment of a run on one of them. -/
inductive Arises : Builder → Prop
  | new (policy : CounterPolicy) : Arises (.new policy)
  | meets {σ α : Type} {p : Program σ α} {m : σ} {b b' : Builder} (hb : b.Arises)
    (h : p.Meets m b b') : Arises b'

/-- Runs may follow each other on one builder. -/
theorem Arises.run {b : Builder} (hb : b.Arises) (p : Program σ α) (m : σ) :
    (p.run m b).2.2.Arises :=
  hb.meets (p.meets_contained m b)

/-! ## The invariant -/

/-- Scopes are open exactly while a build runs, and never more than allowed. -/
structure Sound (b : Builder) : Prop where
  inPhase : b.InPhase
  depth_le : b.depth ≤ maxDepth

theorem sound_new (policy : CounterPolicy) : (new policy).Sound := ⟨rfl, Nat.zero_le _⟩

theorem inPhase_of_building {b : Builder} (hb : b.building = true) (hs : b.scopes ≠ []) :
    b.InPhase := by
  simp [InPhase, hb, hs]

/-- Where a line has been written, another one can be. -/
theorem inPhase_written {b : Builder} (hw : b.isWriting = true) (line : Line) :
    (b.written line).InPhase := by
  obtain ⟨hb, hs⟩ := isWriting_iff.1 hw
  exact inPhase_of_building hb (by simpa [written, append, report] using hs)

/-- **The invariant**: every step keeps it. -/
theorem Step.sound {b b' : Builder} (h : b.Step b') (hb : b.Sound) : b'.Sound := by
  have hle := hb.depth_le
  cases h with
  | write hw _ => exact ⟨inPhase_written hw _, by rwa [depth_written]⟩
  | declare hw _ => exact ⟨inPhase_written (b := { b with next := b.next + 1 }) hw _, by
      rwa [declared, depth_written]⟩
  | enter hw hd =>
    exact ⟨inPhase_of_building (isWriting_iff.1 hw).1 (List.cons_ne_nil _ _), hd⟩
  | @keep s lines value outer hbuild ho hs hv =>
    refine ⟨inPhase_of_building hbuild ho, Nat.le_trans ?_ hle⟩
    rw [depth, depth, hs]
    exact Nat.le_succ _
  | @drop above lower live more hbuild hs =>
    refine ⟨inPhase_of_building hbuild (List.cons_ne_nil _ _), Nat.le_trans ?_ hle⟩
    simp [depth, hs]
  | start _ _ => exact ⟨rfl, Nat.le_add_left 1 63⟩
  | settle _ => exact ⟨rfl, Nat.zero_le _⟩

/-- **Every builder that arises is sound.** -/
theorem Arises.sound {b : Builder} (hb : b.Arises) : b.Sound := by
  induction hb with
  | new policy => exact sound_new policy
  | meets _ h ih => exact h.keeps sound_new Step.sound ih

theorem InPhase.building_iff {b : Builder} (hb : b.InPhase) : b.building = true ↔ 1 ≤ b.depth := by
  rw [Nat.one_le_iff_ne_zero, Ne, hb.depth_eq_zero_iff, Bool.not_eq_false]

end Builder

end Shader
