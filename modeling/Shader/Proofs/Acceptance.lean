import Shader.Proofs.Moments
import Shader.Proofs.Typing

/-!
# Operations are all or nothing

An operation is accepted exactly if a build is running and its operands are of types that it takes.
Then it writes one line and gives out one number; otherwise the builder is as it was, and the failure
names the first rule that is broken.

* `Operation.HasType`: the type rules; `Operation.Violates`: the first rule that is broken;
* **`check_eq_ok_iff`**, **`check_eq_error_iff`**: the check follows the rules;
* **`operation_all_or_nothing`**: when an operation succeeds, and what it leaves behind if it does not.
-/

namespace Shader

variable {σ : Type}

/-! ## The type rules -/

namespace Operand

/-- What may stand beside a receiver of type `t`: a number, a scalar or a value of that very type. -/
inductive IsBeside (t : Ty) : Operand → Prop
  | number (n : Binary64) : IsBeside t (.number n)
  | expr {e : Expr} (he : e.ty.IsBeside t) : IsBeside t (.expr e)

/-- What may be passed for a parameter of type `p`: a value of that very type, or a number for a
scalar. -/
inductive IsFor : Operand → Ty → Prop
  | number (n : Binary64) : IsFor (.number n) .float
  | expr (e : Expr) : IsFor (.expr e) e.ty

/-- The failure of an expression that may not stand beside a receiver of type `t`. -/
inductive Clashes (operation : String) (t : Ty) : Operand → Failure → Prop
  | expr {e : Expr} (he : ¬ e.ty.IsBeside t) :
    Clashes operation t (.expr e) (mismatch operation ("float or " ++ t.keyword) e.ty)

variable {o : Operand} {operation : String} {t : Ty} {f : Failure}

theorem checkBeside_eq_ok_iff_isBeside : o.checkBeside operation t = .ok () ↔ o.IsBeside t := by
  rw [checkBeside_eq_ok_iff]
  constructor
  · intro h
    cases o with
    | number n => exact .number n
    | expr e => exact .expr (by simpa [fitsBeside, ty?, Ty.IsBeside] using h)
  · rintro (n | he)
    · rfl
    · simpa [fitsBeside, ty?, Ty.IsBeside] using he

theorem checkBeside_eq_error_iff : o.checkBeside operation t = .error f ↔ o.Clashes operation t f := by
  constructor
  · intro h
    cases o with
    | number n => cases h
    | expr e =>
      by_cases he : e.ty.IsBeside t
      · rw [checkBeside_eq_ok_iff_isBeside.2 (.expr he)] at h
        cases h
      · simp only [Ty.IsBeside] at he
        simp only [checkBeside, ty?, Bool.or_eq_true, decide_eq_true_eq, if_neg he] at h
        cases h
        exact .expr he
  · rintro ⟨he⟩
    simp only [Ty.IsBeside] at he
    simp [checkBeside, ty?, he]

theorem fitsParam_iff {p : Ty} : o.fitsParam p = true ↔ o.IsFor p := by
  constructor
  · intro h
    cases o with
    | number n =>
      obtain rfl : Ty.float = p := of_decide_eq_true h
      exact .number n
    | expr e =>
      obtain rfl : e.ty = p := of_decide_eq_true h
      exact .expr e
  · rintro (n | e)
    · rfl
    · simp [fitsParam, ty?]

theorem checkParam_eq_error_iff {p : Ty} : o.checkParam operation p = .error f ↔
    ¬ o.IsFor p ∧ f = mismatch operation p.keyword (o.ty?.getD .float) := by
  rw [← fitsParam_iff, fitsParam, checkParam]
  by_cases h : o.ty?.getD .float = p
  · simp [h]
  · simp [h, eq_comm]

end Operand

namespace Operation

/-- **The type rules.** The value of an operation has the type of the receiver, that of a component is
a scalar, and that of a call is of the type that the function answers. -/
inductive HasType : Operation → Ty → Prop
  | arithmetic {op : Arithmetic} {a : Expr} {b : Operand} (hb : b.IsBeside a.ty) :
    HasType (.arithmetic op a b) a.ty
  | intrinsic {fn : Intrinsic} {a : Expr} (ha : a.ty ∈ fn.domain) : HasType (.intrinsic fn a) a.ty
  | step {a : Expr} {edge : Operand} (he : edge.IsBeside a.ty) : HasType (.step a edge) a.ty
  | smoothstep {a : Expr} {edge₀ edge₁ : Operand} (h₀ : edge₀.IsBeside a.ty)
    (h₁ : edge₁.IsBeside a.ty) : HasType (.smoothstep a edge₀ edge₁) a.ty
  | channel {c : Channel} {a : Expr} (ha : a.ty ∈ c.vectors) : HasType (.channel c a) .float
  | call {f : Callee} {args : List Operand} (hargs : List.Forall₂ Operand.IsFor args f.params) :
    HasType (.call f args) f.result

/-- The failure of the first rule that is broken. Edges and arguments are looked at from the left, and
the arguments of a call are counted before. -/
inductive Violates : Operation → Failure → Prop
  | arithmetic {op : Arithmetic} {a : Expr} {b : Operand} {failure : Failure}
    (hb : b.Clashes op.name a.ty failure) : Violates (.arithmetic op a b) failure
  | intrinsic {fn : Intrinsic} {a : Expr} (ha : a.ty ∉ fn.domain) :
    Violates (.intrinsic fn a) (mismatch fn.name fn.accepted a.ty)
  | step {a : Expr} {edge : Operand} {failure : Failure} (he : edge.Clashes "step" a.ty failure) :
    Violates (.step a edge) failure
  | firstEdge {a : Expr} {edge₀ edge₁ : Operand} {failure : Failure}
    (h₀ : edge₀.Clashes "smoothstep" a.ty failure) : Violates (.smoothstep a edge₀ edge₁) failure
  | secondEdge {a : Expr} {edge₀ edge₁ : Operand} {failure : Failure} (h₀ : edge₀.IsBeside a.ty)
    (h₁ : edge₁.Clashes "smoothstep" a.ty failure) : Violates (.smoothstep a edge₀ edge₁) failure
  | channel {c : Channel} {a : Expr} (ha : a.ty ∉ c.vectors) :
    Violates (.channel c a) (mismatch ("." ++ c.name) c.accepted a.ty)
  | count {f : Callee} {args : List Operand} (h : args.length ≠ f.params.length) :
    Violates (.call f args) ⟨.argumentCount f.name f.params.length args.length, none⟩
  | argument {f : Callee} {before after : List Operand} {o : Operand} {params rest : List Ty} {p : Ty}
    (hparams : f.params = params ++ p :: rest) (hlength : after.length = rest.length)
    (hbefore : List.Forall₂ Operand.IsFor before params) (ho : ¬ o.IsFor p) :
    Violates (.call f (before ++ o :: after))
      (mismatch ("call to " ++ f.name) p.keyword (o.ty?.getD .float))

/-- An operation has one type, that of its value. -/
theorem HasType.value_ty {op : Operation} {t : Ty} (h : op.HasType t) : op.value.ty = t := by
  cases h <;> rfl

end Operation

/-! ## The check follows the rules -/

section Arguments

variable {operation : String} {f : Failure}

theorem checkArguments_cons (o : Operand) (os : List Operand) (p : Ty) (ps : List Ty) :
    checkArguments operation (o :: os) (p :: ps) =
      (o.checkParam operation p).bind fun () => checkArguments operation os ps := rfl

theorem checkArguments_eq_ok_iff {os : List Operand} {ps : List Ty} (h : os.length = ps.length) :
    checkArguments operation os ps = .ok () ↔ List.Forall₂ Operand.IsFor os ps := by
  induction os generalizing ps with
  | nil =>
    obtain rfl := List.eq_nil_of_length_eq_zero h.symm
    simp [checkArguments]
  | cons o os ih =>
    cases ps with
    | nil => cases h
    | cons p ps =>
      have htail := ih (Nat.succ.inj h)
      have hhead : o.checkParam operation p = .ok () ↔ o.IsFor p :=
        Operand.checkParam_eq_ok_iff.trans Operand.fitsParam_iff
      rw [checkArguments_cons, List.forall₂_cons, ← htail, ← hhead]
      cases o.checkParam operation p <;> simp [Except.bind]

/-- Of the arguments that do not fit, the first one counts. -/
theorem checkArguments_eq_error_iff {os : List Operand} {ps : List Ty} (h : os.length = ps.length) :
    checkArguments operation os ps = .error f ↔
      ∃ before o after params p rest, os = before ++ o :: after ∧ ps = params ++ p :: rest ∧
        List.Forall₂ Operand.IsFor before params ∧ ¬ o.IsFor p ∧
        f = mismatch operation p.keyword (o.ty?.getD .float) := by
  induction os generalizing ps with
  | nil =>
    obtain rfl := List.eq_nil_of_length_eq_zero h.symm
    simp [checkArguments]
  | cons o os ih =>
    cases ps with
    | nil => cases h
    | cons p ps =>
      have htail := ih (Nat.succ.inj h)
      rw [checkArguments_cons]
      constructor
      · intro hcheck
        cases ho : o.checkParam operation p with
        | error f' =>
          rw [ho] at hcheck
          cases hcheck
          obtain ⟨hfit, rfl⟩ := Operand.checkParam_eq_error_iff.1 ho
          exact ⟨[], o, os, [], p, ps, rfl, rfl, .nil, hfit, rfl⟩
        | ok u =>
          rw [ho] at hcheck
          obtain ⟨before, o', after, params, p', rest, rfl, rfl, hbefore, hrest⟩ := htail.1 hcheck
          have hfit : o.IsFor p := Operand.fitsParam_iff.1 (Operand.checkParam_eq_ok_iff.1 ho)
          exact ⟨o :: before, o', after, p :: params, p', rest, rfl, rfl, .cons hfit hbefore, hrest⟩
      · rintro ⟨before, o', after, params, p', rest, hos, hps, hbefore, hfit, rfl⟩
        cases hbefore with
        | nil =>
          obtain ⟨rfl, rfl⟩ := List.cons.inj hos
          obtain ⟨rfl, rfl⟩ := List.cons.inj hps
          rw [Operand.checkParam_eq_error_iff.2 ⟨hfit, rfl⟩]
          rfl
        | @cons _ _ before params ho hbefore =>
          obtain ⟨rfl, rfl⟩ := List.cons.inj hos
          obtain ⟨rfl, rfl⟩ := List.cons.inj hps
          rw [Operand.checkParam_eq_ok_iff.2 (Operand.fitsParam_iff.2 ho)]
          exact htail.2 ⟨before, o', after, params, p', rest, rfl, rfl, hbefore, hfit, rfl⟩

end Arguments

namespace Operation

variable {op : Operation} {failure : Failure}

theorem check_smoothstep (a : Expr) (edge₀ edge₁ : Operand) :
    (smoothstep a edge₀ edge₁).check = (edge₀.checkBeside "smoothstep" a.ty).bind fun () =>
      edge₁.checkBeside "smoothstep" a.ty := rfl

/-- **The check passes exactly if the operation has a type.** -/
theorem check_eq_ok_iff : op.check = .ok () ↔ ∃ t, op.HasType t := by
  constructor
  · intro h
    cases op with
    | arithmetic op a b => exact ⟨_, .arithmetic (Operand.checkBeside_eq_ok_iff_isBeside.1 h)⟩
    | intrinsic fn a =>
      by_cases ha : fn.takes a.ty = true
      · exact ⟨_, .intrinsic ((fn.takes_iff a.ty).1 ha)⟩
      · rw [check, if_neg ha] at h
        cases h
    | step a edge => exact ⟨_, .step (Operand.checkBeside_eq_ok_iff_isBeside.1 h)⟩
    | smoothstep a edge₀ edge₁ =>
      rw [check_smoothstep] at h
      cases h₀ : edge₀.checkBeside "smoothstep" a.ty with
      | error f =>
        rw [h₀] at h
        cases h
      | ok u =>
        rw [h₀] at h
        exact ⟨_, .smoothstep (Operand.checkBeside_eq_ok_iff_isBeside.1 h₀)
          (Operand.checkBeside_eq_ok_iff_isBeside.1 h)⟩
    | channel c a =>
      by_cases ha : c.isIn a.ty = true
      · exact ⟨_, .channel ((c.isIn_iff a.ty).1 ha)⟩
      · rw [check, if_neg ha] at h
        cases h
    | call f args =>
      by_cases hlength : args.length = f.params.length
      · rw [check, if_pos hlength] at h
        exact ⟨_, .call ((checkArguments_eq_ok_iff hlength).1 h)⟩
      · rw [check, if_neg hlength] at h
        cases h
  · rintro ⟨t, hb | ha | he | ⟨h₀, h₁⟩ | ha | hargs⟩
    · exact Operand.checkBeside_eq_ok_iff_isBeside.2 hb
    · rw [check, if_pos ((Intrinsic.takes_iff _ _).2 ha)]
    · exact Operand.checkBeside_eq_ok_iff_isBeside.2 he
    · rw [check_smoothstep, Operand.checkBeside_eq_ok_iff_isBeside.2 h₀]
      exact Operand.checkBeside_eq_ok_iff_isBeside.2 h₁
    · rw [check, if_pos ((Channel.isIn_iff _ _).2 ha)]
    · rw [check, if_pos hargs.length_eq]
      exact (checkArguments_eq_ok_iff hargs.length_eq).2 hargs

/-- **The check fails with the first rule that is broken.** -/
theorem check_eq_error_iff : op.check = .error failure ↔ op.Violates failure := by
  constructor
  · intro h
    cases op with
    | arithmetic op a b => exact .arithmetic (Operand.checkBeside_eq_error_iff.1 h)
    | intrinsic fn a =>
      by_cases ha : fn.takes a.ty = true
      · rw [check, if_pos ha] at h
        cases h
      · rw [check, if_neg ha] at h
        cases h
        exact .intrinsic fun hmem => ha ((fn.takes_iff a.ty).2 hmem)
    | step a edge => exact .step (Operand.checkBeside_eq_error_iff.1 h)
    | smoothstep a edge₀ edge₁ =>
      rw [check_smoothstep] at h
      cases h₀ : edge₀.checkBeside "smoothstep" a.ty with
      | error f =>
        rw [h₀] at h
        cases h
        exact .firstEdge (Operand.checkBeside_eq_error_iff.1 h₀)
      | ok u =>
        rw [h₀] at h
        exact .secondEdge (Operand.checkBeside_eq_ok_iff_isBeside.1 h₀)
          (Operand.checkBeside_eq_error_iff.1 h)
    | channel c a =>
      by_cases ha : c.isIn a.ty = true
      · rw [check, if_pos ha] at h
        cases h
      · rw [check, if_neg ha] at h
        cases h
        exact .channel fun hmem => ha ((c.isIn_iff a.ty).2 hmem)
    | call f args =>
      by_cases hlength : args.length = f.params.length
      · rw [check, if_pos hlength, checkArguments_eq_error_iff hlength] at h
        obtain ⟨before, o, after, params, p, rest, rfl, hparams, hbefore, ho, rfl⟩ := h
        refine .argument hparams ?_ hbefore ho
        have := hbefore.length_eq
        simp only [hparams, List.length_append, List.length_cons] at hlength
        omega
      · rw [check, if_neg hlength] at h
        cases h
        exact .count hlength
  · intro h
    cases h with
    | arithmetic hb => exact Operand.checkBeside_eq_error_iff.2 hb
    | intrinsic ha => rw [check, if_neg fun h => ha ((Intrinsic.takes_iff _ _).1 h)]
    | step he => exact Operand.checkBeside_eq_error_iff.2 he
    | firstEdge h₀ =>
      rw [check_smoothstep, Operand.checkBeside_eq_error_iff.2 h₀]
      rfl
    | secondEdge h₀ h₁ =>
      rw [check_smoothstep, Operand.checkBeside_eq_ok_iff_isBeside.2 h₀]
      exact Operand.checkBeside_eq_error_iff.2 h₁
    | channel ha => rw [check, if_neg fun h => ha ((Channel.isIn_iff _ _).1 h)]
    | count hcount => rw [check, if_neg hcount]
    | @argument f before after o params rest p hparams hlength hbefore ho =>
      have hcount : (before ++ o :: after).length = f.params.length := by
        simp [hparams, hlength, hbefore.length_eq]
      rw [check, if_pos hcount]
      exact (checkArguments_eq_error_iff hcount).2
        ⟨before, o, after, params, p, rest, rfl, hparams, hbefore, ho, rfl⟩

/-- An operation has a type or breaks a rule, never both. -/
theorem hasType_iff_not_violates : (∃ t, op.HasType t) ↔ ¬ ∃ failure, op.Violates failure := by
  rw [← check_eq_ok_iff]
  cases h : op.check with
  | ok u => simp [← check_eq_error_iff, h]
  | error f => simp [← check_eq_error_iff, h]

end Operation

/-! ## Success and failure -/

namespace Builder

variable {b : Builder}

/-- What an operation that succeeds makes of a builder: a line that declares the next temporary with
the value of the operation, which is `e` from now on. -/
structure Declares (b : Builder) (op : Operation) (e : Expr) (b' : Builder) : Prop where
  code : e.code = "v" ++ toString b.next
  ty : op.HasType e.ty
  text : (Line.declare b.next op).text =
    e.ty.keyword ++ " " ++ e.code ++ " = " ++ op.value.code ++ ";"
  scopes : ∃ live lower, b.scopes = live :: lower ∧
    b'.scopes = (live ++ [.declare b.next op]) :: lower
  next : b'.next = b.next + 1
  functions : b'.functions = b.functions
  uniforms : b'.uniforms = b.uniforms
  building : b'.building = b.building
  policy : b'.policy = b.policy
  journal : b'.journal = .emitted b.depth (.declare b.next op) :: b.journal

/-- Lines can be written exactly while a build runs. -/
theorem Arises.isWriting_iff_building (hb : b.Arises) : b.isWriting = true ↔ b.building = true := by
  rw [isWriting_iff]
  constructor
  · exact fun h => h.1
  · intro h
    have hdepth : 1 ≤ b.depth := hb.sound.inPhase.building_iff.1 h
    exact ⟨h, List.ne_nil_of_length_pos hdepth⟩

theorem declares_declared {op : Operation} (hw : b.isWriting = true) {t : Ty}
    (ht : op.HasType t) : b.Declares op (b.temp op.value.ty) (b.declared op) where
  code := rfl
  ty := by
    have hty : op.HasType op.value.ty := ht.value_ty.symm ▸ ht
    exact hty
  text := rfl
  scopes := by
    obtain ⟨live, lower, hs⟩ := List.exists_cons_of_ne_nil (isWriting_iff.1 hw).2
    exact ⟨live, lower, hs, by simp [declared, written, append, report, hs]⟩
  next := rfl
  functions := rfl
  uniforms := rfl
  building := rfl
  policy := rfl
  journal := rfl

/-- The type rule comes before the state of the builder. -/
theorem perform_eq_error_iff {op : Operation} {f : Failure} : b.perform op = .error f ↔
    op.check = .error f ∨
      op.check = .ok () ∧ b.isWriting = false ∧ f = .ofMisuse (.outsideBuild "assign") := by
  unfold perform ensureWriting
  cases op.check with
  | error g => simp [bind, Except.bind]
  | ok u => cases b.isWriting <;> simp [bind, Except.bind, pure, Except.pure, eq_comm]

end Builder

/-- The run of an operation: the answer of the builder, on which a failure leaves no trace. -/
theorem Program.run_perform_pure (op : Operation) (m : σ) (b : Builder) :
    (Program.perform op .pure).run m b = match b.perform op with
      | .ok (e, b') => (.done (.ok e), m, b')
      | .error f => (.done (.error f), m, b) := by
  cases h : b.perform op with
  | ok r => simp only [run, h]
  | error f => simp only [run, h]

/-- **Operations are all or nothing.** On every builder that arises, an operation answers; it succeeds
exactly if a build is running and the operation has a type. Then it has declared one temporary, of
that type. If it does not succeed, memory and builder are as they were, and the failure is that of
the first rule that is broken; if no rule is broken, that of an operation outside of a build. -/
theorem operation_all_or_nothing {b : Builder} (hb : b.Arises) (op : Operation) (m : σ) :
    let call : Program σ (Except Failure Expr) := .perform op .pure
    (∃ answer m' b', call.run m b = (.done answer, m', b')) ∧
    ((∃ e m' b', call.run m b = (.done (.ok e), m', b')) ↔
      b.building = true ∧ ∃ t, op.HasType t) ∧
    (∀ e m' b', call.run m b = (.done (.ok e), m', b') → m' = m ∧ b.Declares op e b') ∧
    ∀ f m' b', call.run m b = (.done (.error f), m', b') ↔
      (m' = m ∧ b' = b) ∧ (op.Violates f ∨
        (∃ t, op.HasType t) ∧ b.building = false ∧ f = .ofMisuse (.outsideBuild "assign")) := by
  intro call
  have hrun := Program.run_perform_pure op m b
  have hphase : b.isWriting = false ↔ b.building = false := by
    rw [← Bool.not_eq_true, ← Bool.not_eq_true, hb.isWriting_iff_building]
  cases hp : b.perform op with
  | ok p =>
    obtain ⟨e, b'⟩ := p
    have hcall : call.run m b = (.done (.ok e), m, b') := by rw [hrun, hp]
    obtain ⟨hcheck, hw, rfl, rfl⟩ := Builder.perform_eq_ok_iff.1 hp
    have htype : ∃ t, op.HasType t := Operation.check_eq_ok_iff.1 hcheck
    have hbuilding : b.building = true := hb.isWriting_iff_building.1 hw
    refine ⟨⟨_, _, _, hcall⟩, ⟨fun _ => ⟨hbuilding, htype⟩, fun _ => ⟨_, _, _, hcall⟩⟩, ?_, ?_⟩
    · intro e m' b' h
      cases hcall.symm.trans h
      obtain ⟨t, ht⟩ := htype
      exact ⟨rfl, Builder.declares_declared hw ht⟩
    · intro f m' b'
      constructor
      · intro h
        cases hcall.symm.trans h
      · rintro ⟨-, hviolates | ⟨-, hidle, -⟩⟩
        · exact absurd ⟨f, hviolates⟩ (Operation.hasType_iff_not_violates.1 htype)
        · rw [hbuilding] at hidle
          cases hidle
  | error f =>
    have hcall : call.run m b = (.done (.error f), m, b) := by rw [hrun, hp]
    have hfailure : ∀ g, g = f ↔ (op.Violates g ∨
        (∃ t, op.HasType t) ∧ b.building = false ∧ g = .ofMisuse (.outsideBuild "assign")) := by
      intro g
      rw [← Operation.check_eq_error_iff, ← Operation.check_eq_ok_iff, ← hphase,
        ← Builder.perform_eq_error_iff, hp, Except.error.injEq, eq_comm]
    refine ⟨⟨_, _, _, hcall⟩, ⟨?_, ?_⟩, ?_, ?_⟩
    · rintro ⟨e, m', b', h⟩
      cases hcall.symm.trans h
    · rintro ⟨hbuilding, htype⟩
      obtain hviolates | ⟨-, hidle, -⟩ := (hfailure f).1 rfl
      · exact absurd ⟨f, hviolates⟩ (Operation.hasType_iff_not_violates.1 htype)
      · rw [hbuilding] at hidle
        cases hidle
    · intro e m' b' h
      cases hcall.symm.trans h
    · intro g m' b'
      rw [← hfailure g]
      constructor
      · intro h
        cases hcall.symm.trans h
        exact ⟨⟨rfl, rfl⟩, rfl⟩
      · rintro ⟨⟨rfl, rfl⟩, rfl⟩
        exact hcall

/-- A build that is abandoned while a function is defined in it. -/
def abandonedBuild : Program Unit (Except Failure Output) :=
  .build [] (fun _ => .define ⟨"f", .float, []⟩ (fun _ => .abort) fun _ => .abort) .pure

/-- A function of a scalar and a vector. -/
def shade : Callee := ⟨"shade", .vec3, [.float, .vec2]⟩

/-- The build ends at once, with the scope of the function still open. -/
theorem run_abandonedBuild : abandonedBuild.run () (.new .perBuild) =
    (.aborted, (), ((Builder.new .perBuild).begun []).opened) := by
  rw [abandonedBuild, Program.run_build_of_not_building rfl]
  rfl

/-- On the builder that an abandoned build has left, with two scopes open: a call whose second argument
has the wrong type changes nothing, a correct one is declared as `v0`. On a new builder the correct
call fails as well. -/
theorem operation_all_or_nothing_abandoned :
    let b := ((Builder.new .perBuild).begun []).opened
    let wrong : Operation := .call shade [.number (.ofNat 1), .expr ⟨"v3", .vec3⟩]
    let right : Operation := .call shade [.number (.ofNat 1), .expr ⟨"gl_FragCoord.xy", .vec2⟩]
    let f : Failure := ⟨.typeMismatch "call to shade" "vec2" .vec3, none⟩
    abandonedBuild.run () (.new .perBuild) = (.aborted, (), b) ∧ b.building = true ∧ b.depth = 2 ∧
      (Program.perform wrong .pure).run () b = (.done (.error f), (), b) ∧
      (∃ b', (Program.perform right .pure).run () b = (.done (.ok ⟨"v0", .vec3⟩), (), b') ∧
        b'.scopes = [[.declare 0 right], []]) ∧
      (Program.perform right .pure).run () (.new .perBuild) =
        (.done (.error (.ofMisuse (.outsideBuild "assign"))), (), .new .perBuild) := by
  intro b wrong right f
  have hb : b.Arises := by
    have harises := (Builder.Arises.new .perBuild).run abandonedBuild ()
    rwa [run_abandonedBuild] at harises
  have hright : right.HasType .vec3 :=
    .call (.cons (.number _) (.cons (.expr ⟨"gl_FragCoord.xy", .vec2⟩) .nil))
  have hargument : ¬ (Operand.expr ⟨"v3", .vec3⟩).IsFor .vec2 := by
    rw [← Operand.fitsParam_iff]
    decide
  have hparams : shade.params = [.float] ++ .vec2 :: [] := rfl
  have hwrong : wrong.Violates f := .argument hparams rfl (.cons (.number _) .nil) hargument
  obtain ⟨-, -, -, hfails⟩ := operation_all_or_nothing hb wrong ()
  obtain ⟨-, hsucceeds, hdeclares, -⟩ := operation_all_or_nothing hb right ()
  obtain ⟨-, -, -, hidle⟩ := operation_all_or_nothing (.new .perBuild) right ()
  refine ⟨run_abandonedBuild, rfl, rfl, (hfails f () b).2 ⟨⟨rfl, rfl⟩, .inl hwrong⟩, ?_, ?_⟩
  · obtain ⟨e, m', b', hrun⟩ := hsucceeds.2 ⟨rfl, .vec3, hright⟩
    obtain ⟨-, hd⟩ := hdeclares e m' b' hrun
    obtain ⟨live, lower, hs, hs'⟩ := hd.scopes
    obtain ⟨rfl, rfl⟩ := List.cons.inj hs
    have he : e = ⟨"v0", .vec3⟩ := by
      have hv0 : "v" ++ toString b.next = "v0" := by decide
      rw [Expr.mk.injEq]
      exact ⟨hd.code.trans hv0, hd.ty.value_ty.symm⟩
    exact ⟨b', he ▸ hrun, hs'⟩
  · exact (hidle _ () _).2 ⟨⟨rfl, rfl⟩, .inr ⟨⟨.vec3, hright⟩, rfl, rfl⟩⟩

end Shader
