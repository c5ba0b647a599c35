import Shader.Graph
import Shader.Proofs.Calls
import Shader.Proofs.Template

/-!
# The history of a builder shows in numbers only

A builder that has built before numbers its temporaries from somewhere else on. A main body that does
not look into the text of expressions cannot tell, so what it builds is the same but for these numbers.

* `Builder.Mirrors`: builders that hold the same up to a shift of their temporaries;
* `Program.Alike`: programs that do the same with texts that are the same up to a shift;
* `IsBlind`: main bodies that do not look into texts, which are alike to themselves;
* **`Alike.run`**: programs that are alike run alike on builders that mirror each other;
* **`history_in_numbers`**: the builds of a builder with a history and of a new one.
-/

namespace Shader

variable {σ α β : Type}

/-- Related answers, or one failure. -/
inductive SameResult (A : α → α → Prop) : Except Failure α → Except Failure α → Prop
  | ok {a a' : α} (h : A a a') : SameResult A (.ok a) (.ok a')
  | error (f : Failure) : SameResult A (.error f) (.error f)

/-- Related answers, one failure, or an abandonment twice. -/
inductive SameOutcome (A : α → α → Prop) : Outcome α → Outcome α → Prop
  | done {a a' : α} (h : A a a') : SameOutcome A (.done a) (.done a')
  | failed (f : Failure) : SameOutcome A (.failed f) (.failed f)
  | aborted : SameOutcome A .aborted .aborted

section Lists

variable {R : α → β → Prop} {l : List α} {l' : List β}

theorem forall₂_modifyHead (h : List.Forall₂ R l l') {f : α → α} {f' : β → β}
    (hf : ∀ {x y}, R x y → R (f x) (f' y)) : List.Forall₂ R (l.modifyHead f) (l'.modifyHead f') := by
  cases h with
  | nil => exact .nil
  | cons hx hl => exact .cons (hf hx) hl

theorem forall₂_tail (h : List.Forall₂ R l l') : List.Forall₂ R l.tail l'.tail := by
  cases h with
  | nil => exact .nil
  | cons _ hl => exact hl

theorem headD_of_forall₂ (h : List.Forall₂ R l l') {x : α} {y : β} (hxy : R x y) :
    R (l.headD x) (l'.headD y) := by
  cases h with
  | nil => exact hxy
  | cons hx _ => exact hx

theorem isEmpty_of_forall₂ (h : List.Forall₂ R l l') : l.isEmpty = l'.isEmpty := by
  cases h <;> rfl

end Lists

namespace Builder

/-- `b'` holds what `b` holds, up to a shift by `d`. New temporaries are shifted by `e`, which is `d`
inside the builds that are compared. On other builders nothing is shifted. -/
structure Mirrors (d e : Nat) (b b' : Builder) : Prop where
  shift : e = 0 ∨ e = d ∧ b.building = true
  policy : b.policy = b'.policy
  building : b.building = b'.building
  scopes : List.Forall₂ (List.Forall₂ (Line.Same d)) b.scopes b'.scopes
  functions : List.Forall₂ (Definition.Same d) b.functions b'.functions
  uniforms : b.uniforms = b'.uniforms
  next : b'.next = e + b.next

namespace Mirrors

variable {d e : Nat} {b b' : Builder}

theorem new (d : Nat) (policy : CounterPolicy) : (Builder.new policy).Mirrors d 0 (.new policy) where
  shift := .inl rfl
  policy := rfl
  building := rfl
  scopes := .nil
  functions := .nil
  uniforms := rfl
  next := rfl

/-! ### What a builder shows -/

theorem depth (h : b.Mirrors d e b') : b.depth = b'.depth := h.scopes.length_eq

theorem lines (h : b.Mirrors d e b') : List.Forall₂ (Line.Same d) b.lines b'.lines :=
  headD_of_forall₂ h.scopes .nil

theorem view (h : b.Mirrors d e b') : b.view.Same d b'.view := ⟨h.depth, h.lines, h.building⟩

theorem isWriting (h : b.Mirrors d e b') : b.isWriting = b'.isWriting := by
  simp only [Builder.isWriting, h.building, isEmpty_of_forall₂ h.scopes]

theorem here (h : b.Mirrors d e b') : b.here = b'.here := by
  simp only [Builder.here, h.depth, h.lines.length_eq]

theorem renumbered (h : b.Mirrors d e b') : Renumbered d b.next b'.next := by
  obtain rfl | ⟨rfl, -⟩ := h.shift
  · exact .inl (by simpa using h.next)
  · exact .inr h.next

/-! ### Operations -/

theorem written (h : b.Mirrors d e b') {l l' : Line} (hl : l.Same d l') :
    (b.written l).Mirrors d e (b'.written l') :=
  { h with
    scopes := forall₂_modifyHead h.scopes fun hls => List.rel_append hls (.cons hl .nil) }

theorem declared (h : b.Mirrors d e b') {op op' : Operation} (hop : op.Same d op') :
    (b.declared op).Mirrors d e (b'.declared op') := by
  have hnext : Mirrors d e { b with next := b.next + 1 } { b' with next := b'.next + 1 } :=
    { h with next := by rw [h.next, Nat.add_assoc] }
  exact hnext.written (.declare h.renumbered hop)

theorem opened (h : b.Mirrors d e b') : b.opened.Mirrors d e b'.opened :=
  { h with scopes := .cons .nil h.scopes }

theorem cutTo (h : b.Mirrors d e b') (depth : Nat) :
    (b.cutTo depth).Mirrors d e (b'.cutTo depth) := by
  have hscopes := List.forall₂_drop (b.scopes.length - depth) h.scopes
  nth_rewrite 2 [h.scopes.length_eq] at hscopes
  exact { h with scopes := hscopes }

theorem rollback (h : b.Mirrors d e b') (mark : Mark) :
    (b.rollback mark).Mirrors d e (b'.rollback mark) :=
  let hcut := h.cutTo mark.depth
  { hcut with scopes := forall₂_modifyHead hcut.scopes fun hls => List.forall₂_take _ hls }

theorem closeScope (h : b.Mirrors d e b') (depth : Nat) :
    (b.closeScope depth).2.Mirrors d e (b'.closeScope depth).2 := by
  unfold Builder.closeScope
  rw [← h.depth]
  by_cases hd : b.depth = depth
  · rw [if_pos hd, if_pos hd]
    exact { h with scopes := forall₂_tail h.scopes }
  · rw [if_neg hd, if_neg hd]
    exact h.cutTo _

theorem addFunction (h : b.Mirrors d e b') {f f' : Definition} (hf : f.Same d f') :
    (b.addFunction f).Mirrors d e (b'.addFunction f') :=
  { h with functions := List.rel_append h.functions (.cons hf .nil) }

theorem returnValue (h : b.Mirrors d e b') (s : Signature) {value value' : Expr}
    (hv : value.Same d value') :
    (b.returnValue s value).1 = (b'.returnValue s value').1 ∧
      (b.returnValue s value).2.Mirrors d e (b'.returnValue s value').2 := by
  unfold Builder.returnValue
  rw [← hv.ty]
  split
  · cases hw : b.isWriting with
    | false =>
      rw [emit_of_not_isWriting hw, emit_of_not_isWriting (h.isWriting ▸ hw)]
      exact ⟨rfl, h⟩
    | true =>
      rw [emit_of_isWriting hw, emit_of_isWriting (h.isWriting ▸ hw)]
      exact ⟨rfl, h.written (.result hv)⟩
  · exact ⟨rfl, h⟩

theorem closeFunction (h : b.Mirrors d e b') (s : Signature) (depth : Nat)
    {ended ended' : Except Failure Unit} (hended : ended = ended') :
    (b.closeFunction s depth ended).1 = (b'.closeFunction s depth ended').1 ∧
      (b.closeFunction s depth ended).2.Mirrors d e (b'.closeFunction s depth ended').2 := by
  subst hended
  have hclosed := h.closeScope depth
  cases ended with
  | error f => exact ⟨rfl, hclosed⟩
  | ok u =>
    unfold Builder.closeFunction
    unfold Builder.closeScope at hclosed ⊢
    rw [← h.depth] at hclosed ⊢
    by_cases hd : b.depth = depth
    · rw [if_pos hd, if_pos hd] at hclosed ⊢
      exact ⟨rfl, hclosed.addFunction ⟨rfl, h.lines⟩⟩
    · rw [if_neg hd, if_neg hd] at hclosed ⊢
      exact ⟨rfl, hclosed⟩

/-! ### Builds -/

/-- Where a build starts, if nothing is shifted. -/
theorem begun (h : b.Mirrors d e b') (hb : b.building = false) (uniforms : List Var) :
    (b.begun uniforms).Mirrors d e (b'.begun uniforms) where
  shift := by
    obtain rfl | ⟨-, hb'⟩ := h.shift
    · exact .inl rfl
    · simp [hb] at hb'
  policy := h.policy
  building := rfl
  scopes := .cons .nil .nil
  functions := .nil
  uniforms := rfl
  next := by
    obtain rfl | ⟨-, hb'⟩ := h.shift
    · have hn : b'.next = b.next := by simpa using h.next
      simp [Builder.begun, h.policy, hn]
    · simp [hb] at hb'

theorem complete (h : b.Mirrors d e b') {value value' : Expr} (hv : value.Same d value') :
    SameResult (Output.Same d) (b.complete value).1 (b'.complete value').1 ∧
      (b.complete value).2.Mirrors d e (b'.complete value').2 := by
  cases hw : b.isWriting with
  | false =>
    unfold Builder.complete
    rw [emit_of_not_isWriting hw, emit_of_not_isWriting (h.isWriting ▸ hw)]
    exact ⟨.error _, h⟩
  | true =>
    rw [complete_of_isWriting hw, complete_of_isWriting (h.isWriting ▸ hw), ← h.depth]
    refine ⟨?_, h.written (.color hv)⟩
    split
    · exact .ok ⟨h.uniforms, h.functions, List.rel_append h.lines (.cons (.color hv) .nil)⟩
    · exact .error _

/-- The end of a build, if nothing is shifted. -/
theorem settle (h : b.Mirrors d 0 b') (r r' : Except Failure Output) :
    (b.settle r).Mirrors d 0 (b'.settle r') :=
  { h with shift := .inl rfl, building := rfl, scopes := .nil }

end Mirrors

end Builder

/-! ## Programs -/

namespace Program

/-- Programs that do the same with texts that are the same up to a shift by `d`, their answers being
related by `A` and their memories by `S`. They carry out the same operations, on expressions that are
the same up to the shift, and use such texts in conditions and lines; functions and uniforms have the
same names. -/
inductive Alike (d : Nat) (S : σ → σ → Prop) :
    {α : Type} → (A : α → α → Prop) → Program σ α → Program σ α → Prop
  | pure {α : Type} {A : α → α → Prop} {a a' : α} (ha : A a a') : Alike d S A (.pure a) (.pure a')
  | fail {α : Type} {A : α → α → Prop} (f : Failure) : Alike d S A (.fail f) (.fail f)
  | abort {α : Type} {A : α → α → Prop} : Alike d S A .abort .abort
  | own {α β : Type} {A : α → α → Prop} {B : β → β → Prop} {act act' : σ → β × σ}
    {k k' : β → Program σ α}
    (hact : ∀ m m', S m m' → B (act m).1 (act' m').1 ∧ S (act m).2 (act' m').2)
    (hk : ∀ x x', B x x' → Alike d S A (k x) (k' x')) : Alike d S A (.own act k) (.own act' k')
  | look {α : Type} {A : α → α → Prop} {k k' : View → Program σ α}
    (hk : ∀ v v', v.Same d v' → Alike d S A (k v) (k' v')) : Alike d S A (.look k) (.look k')
  | perform {α : Type} {A : α → α → Prop} {op op' : Operation}
    {k k' : Except Failure Expr → Program σ α} (hop : op.Same d op')
    (hk : ∀ r r', SameResult (Expr.Same d) r r' → Alike d S A (k r) (k' r')) :
    Alike d S A (.perform op k) (.perform op' k')
  | emit {α : Type} {A : α → α → Prop} {text text' : String}
    {k k' : Except Failure Unit → Program σ α} (htext : SameText d text text')
    (hk : ∀ r, Alike d S A (k r) (k' r)) : Alike d S A (.emit text k) (.emit text' k')
  | define {α : Type} {A : α → α → Prop} (s : Signature) {body body' : List Expr → Program σ Expr}
    {k k' : Except Failure Callee → Program σ α}
    (hbody : ∀ args, Alike d S (Expr.Same d) (body args) (body' args))
    (hk : ∀ r, Alike d S A (k r) (k' r)) : Alike d S A (.define s body k) (.define s body' k')
  | when {α : Type} {A : α → α → Prop} {cond cond' : String} {body body' : Program σ Unit}
    {k k' : Except Failure Unit → Program σ α} (hcond : SameText d cond cond')
    (hbody : Alike d S Eq body body') (hk : ∀ r, Alike d S A (k r) (k' r)) :
    Alike d S A (.when cond body k) (.when cond' body' k')
  | choose {α : Type} {A : α → α → Prop} {cond cond' : String}
    {body body' other other' : Program σ Unit} {k k' : Except Failure Unit → Program σ α}
    (hcond : SameText d cond cond') (hbody : Alike d S Eq body body')
    (hother : Alike d S Eq other other') (hk : ∀ r, Alike d S A (k r) (k' r)) :
    Alike d S A (.choose cond body other k) (.choose cond' body' other' k')
  | build {α : Type} {A : α → α → Prop} (wanted : List Var) {main main' : Fragment → Program σ Expr}
    {k k' : Except Failure Output → Program σ α}
    (hmain : ∀ f, Alike d S (Expr.Same d) (main f) (main' f))
    (hk : ∀ r r', SameResult (Output.Same d) r r' → Alike d S A (k r) (k' r')) :
    Alike d S A (.build wanted main k) (.build wanted main' k')
  | fresh {α β : Type} {A : α → α → Prop} {B : β → β → Prop} (policy : CounterPolicy)
    {body body' : Program σ β} {k k' : Except Failure β → Program σ α}
    (hbody : Alike d S B body body')
    (hk : ∀ r r', SameResult B r r' → Alike d S A (k r) (k' r')) :
    Alike d S A (.fresh policy body k) (.fresh policy body' k')
  | contain {α β : Type} {A : α → α → Prop} {B : β → β → Prop} {body body' : Program σ β}
    {k k' : Outcome β → Program σ α} (hbody : Alike d S B body body')
    (hk : ∀ o o', SameOutcome B o o' → Alike d S A (k o) (k' o')) :
    Alike d S A (.contain body k) (.contain body' k')

end Program

/-! ## Runs -/

/-- Runs with related ends. -/
structure SameRun (B : Builder → Builder → Prop) (S : σ → σ → Prop) (A : α → α → Prop)
    (ran ran' : Outcome α × σ × Builder) : Prop where
  outcome : SameOutcome A ran.1 ran'.1
  memory : S ran.2.1 ran'.2.1
  builder : B ran.2.2 ran'.2.2

section Runs

variable {d e : Nat} {S : σ → σ → Prop} {A : α → α → Prop} {A' : β → β → Prop}
  {B B' : Builder → Builder → Prop} {m m' : σ} {b b' : Builder}

theorem SameRun.andThen {ran ran' : Outcome α × σ × Builder}
    {g g' : α → σ → Builder → Outcome β × σ × Builder} (h : SameRun B S A ran ran')
    (hg : ∀ x x' m m' b b', A x x' → S m m' → B b b' → SameRun B S A' (g x m b) (g' x' m' b')) :
    SameRun B S A' (Outcome.andThen ran g) (Outcome.andThen ran' g') := by
  obtain ⟨o, m, b⟩ := ran
  obtain ⟨o', m', b'⟩ := ran'
  obtain ⟨ho, hm, hb⟩ := h
  cases ho with
  | done ha => exact hg _ _ _ _ _ _ ha hm hb
  | failed f => exact ⟨.failed f, hm, hb⟩
  | aborted => exact ⟨.aborted, hm, hb⟩

theorem SameRun.close (s : Signature) (depth : Nat) {ran ran' : Outcome Expr × σ × Builder}
    (h : SameRun (Builder.Mirrors d e) S (Expr.Same d) ran ran') :
    SameRun (Builder.Mirrors d e) S Eq (Outcome.close s depth ran)
      (Outcome.close s depth ran') := by
  obtain ⟨o, m, b⟩ := ran
  obtain ⟨o', m', b'⟩ := ran'
  obtain ⟨ho, hm, hb : b.Mirrors d e b'⟩ := h
  cases ho with
  | @done value value' hv =>
    obtain ⟨hended, hb₁⟩ := hb.returnValue s hv
    obtain ⟨hr, hb₂⟩ := hb₁.closeFunction s depth hended
    exact ⟨.done hr, hm, hb₂⟩
  | failed f =>
    obtain ⟨hr, hb₁⟩ := hb.closeFunction s depth (rfl : Except.error f = .error f)
    exact ⟨.done hr, hm, hb₁⟩
  | aborted => exact ⟨.aborted, hm, hb⟩

theorem SameRun.conclude (mark : Builder.Mark) {ran ran' : Outcome Unit × σ × Builder}
    (h : SameRun (Builder.Mirrors d e) S Eq ran ran') :
    SameRun (Builder.Mirrors d e) S Eq (Outcome.conclude mark ran)
      (Outcome.conclude mark ran') := by
  obtain ⟨o, m, b⟩ := ran
  obtain ⟨o', m', b'⟩ := ran'
  obtain ⟨ho, hm, hb⟩ := h
  cases ho with
  | done _ => exact ⟨.done rfl, hm, hb⟩
  | failed f => exact ⟨.done rfl, hm, hb.rollback mark⟩
  | aborted => exact ⟨.aborted, hm, hb⟩

/-- The end of a build. The builders go on as they were shifted, and if they were not, they hold the
same. -/
theorem SameRun.settle {ran ran' : Outcome Expr × σ × Builder}
    (h : SameRun (Builder.Mirrors d e) S (Expr.Same d) ran ran') :
    SameRun (fun b b' => b'.next = e + b.next ∧ (e = 0 → b.Mirrors d 0 b')) S
      (SameResult (Output.Same d)) (Outcome.settle ran) (Outcome.settle ran') := by
  obtain ⟨o, m, b⟩ := ran
  obtain ⟨o', m', b'⟩ := ran'
  obtain ⟨ho, hm, hb : b.Mirrors d e b'⟩ := h
  cases ho with
  | @done value value' hv =>
    obtain ⟨hr, hb₁⟩ := hb.complete hv
    refine ⟨.done hr, hm, hb₁.next, ?_⟩
    rintro rfl
    exact hb₁.settle _ _
  | failed f =>
    refine ⟨.done (.error f), hm, hb.next, ?_⟩
    rintro rfl
    exact hb.settle (.error f) (.error f)
  | aborted =>
    refine ⟨.aborted, hm, hb.next, ?_⟩
    rintro rfl
    exact hb

namespace Program

/-- Programs that run alike on builders that hold the same up to a shift. -/
def RunAlike (d e : Nat) (S : σ → σ → Prop) (A : α → α → Prop) (p p' : Program σ α) : Prop :=
  ∀ {m m' : σ} {b b' : Builder}, S m m' → b.Mirrors d e b' →
    SameRun (Builder.Mirrors d e) S A (p.run m b) (p'.run m' b')

theorem runAlike_perform {op op' : Operation} (hop : op.Same d op') :
    RunAlike d e S (SameResult (Expr.Same d)) (.perform op .pure) (.perform op' .pure) := by
  intro m m' b b' hm hb
  cases hc : op.check with
  | error f =>
    have hp : b.perform op = .error f := by simp [Builder.perform, hc, Bind.bind, Except.bind]
    have hp' : b'.perform op' = .error f := by
      simp [Builder.perform, ← hop.check, hc, Bind.bind, Except.bind]
    simp only [run, hp, hp']
    exact ⟨.done (.error f), hm, hb⟩
  | ok u =>
    have hc' : op'.check = .ok () := hop.check ▸ hc
    cases hw : b.isWriting with
    | false =>
      have hw' : b'.isWriting = false := hb.isWriting ▸ hw
      simp only [run, Builder.perform, hc, hc', Builder.ensureWriting_of_not_isWriting hw,
        Builder.ensureWriting_of_not_isWriting hw', Bind.bind, Except.bind]
      exact ⟨.done (.error _), hm, hb⟩
    | true =>
      have hw' : b'.isWriting = true := hb.isWriting ▸ hw
      have hp := Builder.perform_eq_ok_iff.2 ⟨hc, hw, rfl, rfl⟩
      have hp' := Builder.perform_eq_ok_iff.2 ⟨hc', hw', rfl, rfl⟩
      simp only [run, hp, hp']
      exact ⟨.done (.ok ⟨hb.renumbered.sameText, hop.value.ty⟩), hm, hb.declared hop⟩

theorem runAlike_emit {text text' : String} (htext : SameText d text text') :
    RunAlike d e S Eq (.emit text .pure) (.emit text' .pure) := by
  intro m m' b b' hm hb
  cases hw : b.isWriting with
  | false =>
    have hw' : b'.isWriting = false := hb.isWriting ▸ hw
    simp only [run, Builder.emit_of_not_isWriting hw, Builder.emit_of_not_isWriting hw']
    exact ⟨.done rfl, hm, hb⟩
  | true =>
    have hw' : b'.isWriting = true := hb.isWriting ▸ hw
    simp only [run, Builder.emit_of_isWriting hw, Builder.emit_of_isWriting hw']
    exact ⟨.done rfl, hm, hb.written (.raw htext)⟩

theorem runAlike_define (s : Signature) {body body' : List Expr → Program σ Expr}
    (hbody : ∀ args, RunAlike d e S (Expr.Same d) (body args) (body' args)) :
    RunAlike d e S Eq (.define s body .pure) (.define s body' .pure) := by
  intro m m' b b' hm hb
  cases hw : b.isWriting with
  | false =>
    rw [run_define_of_not_isWriting hw, run_define_of_not_isWriting (hb.isWriting ▸ hw)]
    exact ⟨.done rfl, hm, hb⟩
  | true =>
    have hw' : b'.isWriting = true := hb.isWriting ▸ hw
    by_cases hd : b.depth < maxDepth
    · rw [run_define_of_isWriting hw hd, run_define_of_isWriting hw' (hb.depth ▸ hd), ← hb.depth]
      exact (hbody _ hm hb.opened).close s _
    · have hd := Nat.le_of_not_lt hd
      rw [run_define_of_le hw hd, run_define_of_le hw' (hb.depth ▸ hd)]
      exact ⟨.done rfl, hm, hb⟩

theorem sameRun_branch {head head' : Line} (hhead : head.Same d head') {body body' : Program σ Unit}
    (hbody : RunAlike d e S Eq body body') (hm : S m m') (hb : b.Mirrors d e b') :
    SameRun (Builder.Mirrors d e) S Eq (branch head body.run m b)
      (branch head' body'.run m' b') := by
  cases hw : b.isWriting with
  | false =>
    have hw' : b'.isWriting = false := hb.isWriting ▸ hw
    simp only [branch, Builder.emit_of_not_isWriting hw, Builder.emit_of_not_isWriting hw']
    exact ⟨.failed _, hm, hb⟩
  | true =>
    rw [branch_of_isWriting hw, branch_of_isWriting (hb.isWriting ▸ hw)]
    refine (hbody hm (hb.written hhead)).andThen fun _ _ m m' b b' _ hm hb => ?_
    cases hw : b.isWriting with
    | false =>
      rw [Builder.emit_of_not_isWriting hw, Builder.emit_of_not_isWriting (hb.isWriting ▸ hw)]
      exact ⟨.failed _, hm, hb⟩
    | true =>
      rw [Builder.emit_of_isWriting hw, Builder.emit_of_isWriting (hb.isWriting ▸ hw)]
      exact ⟨.done rfl, hm, hb.written .closing⟩

theorem runAlike_when {cond cond' : String} (hcond : SameText d cond cond')
    {body body' : Program σ Unit} (hbody : RunAlike d e S Eq body body') :
    RunAlike d e S Eq (.when cond body .pure) (.when cond' body' .pure) := by
  intro m m' b b' hm hb
  cases hw : b.isWriting with
  | false =>
    rw [run_when_of_not_isWriting hw, run_when_of_not_isWriting (hb.isWriting ▸ hw)]
    exact ⟨.done rfl, hm, hb⟩
  | true =>
    rw [run_when_of_isWriting hw, run_when_of_isWriting (hb.isWriting ▸ hw), ← hb.here]
    exact (sameRun_branch (.opening hcond) hbody hm hb).conclude _

theorem runAlike_choose {cond cond' : String} (hcond : SameText d cond cond')
    {body body' other other' : Program σ Unit} (hbody : RunAlike d e S Eq body body')
    (hother : RunAlike d e S Eq other other') :
    RunAlike d e S Eq (.choose cond body other .pure) (.choose cond' body' other' .pure) := by
  intro m m' b b' hm hb
  cases hw : b.isWriting with
  | false =>
    rw [run_choose_of_not_isWriting hw, run_choose_of_not_isWriting (hb.isWriting ▸ hw)]
    exact ⟨.done rfl, hm, hb⟩
  | true =>
    rw [run_choose_of_isWriting hw, run_choose_of_isWriting (hb.isWriting ▸ hw), ← hb.here]
    refine SameRun.conclude _ ?_
    exact (sameRun_branch (.opening hcond) hbody hm hb).andThen
      fun _ _ _ _ _ _ _ hm hb => sameRun_branch .otherwise hother hm hb

/-- A build inside the builds that are compared is refused. On another builder nothing is shifted. -/
theorem runAlike_build (wanted : List Var) {main main' : Fragment → Program σ Expr}
    (hmain : ∀ f, RunAlike d e S (Expr.Same d) (main f) (main' f)) :
    RunAlike d e S (SameResult (Output.Same d)) (.build wanted main .pure)
      (.build wanted main' .pure) := by
  intro m m' b b' hm hb
  cases hbuild : b.building with
  | true =>
    rw [run_build_of_building hbuild, run_build_of_building (hb.building ▸ hbuild)]
    exact ⟨.done (.error _), hm, hb⟩
  | false =>
    obtain rfl : e = 0 := by
      obtain he | ⟨-, hb'⟩ := hb.shift
      · exact he
      · simp [hbuild] at hb'
    rw [run_build_of_not_building hbuild, run_build_of_not_building (hb.building ▸ hbuild)]
    cases Builder.collectUniforms wanted with
    | error f =>
      exact ⟨.done (.error f), hm, (hb.begun hbuild []).settle (.error f) (.error f)⟩
    | ok uniforms =>
      have hend := (hmain ⟨uniforms⟩ hm (hb.begun hbuild uniforms)).settle
      exact ⟨hend.outcome, hend.memory, hend.builder.2 rfl⟩

/-- **Programs that are alike run alike** on builders that hold the same up to the shift. -/
theorem Alike.run {p p' : Program σ α} (h : Alike d S A p p') (e : Nat) :
    RunAlike d e S A p p' := by
  induction h generalizing e with
  | pure ha => exact fun hm hb => ⟨.done ha, hm, hb⟩
  | fail f => exact fun hm hb => ⟨.failed f, hm, hb⟩
  | abort => exact fun hm hb => ⟨.aborted, hm, hb⟩
  | own hact _ ih => exact fun hm hb => ih _ _ (hact _ _ hm).1 e (hact _ _ hm).2 hb
  | look _ ih => exact fun hm hb => ih _ _ hb.view e hm hb
  | @perform _ _ op op' k k' hop _ ih =>
    intro m m' b b' hm hb
    rw [run_perform op k, run_perform op' k']
    exact (runAlike_perform hop hm hb).andThen fun _ _ _ _ _ _ hr hm hb => ih _ _ hr e hm hb
  | @emit _ _ text text' k k' htext _ ih =>
    intro m m' b b' hm hb
    rw [run_emit text k, run_emit text' k']
    refine (runAlike_emit htext hm hb).andThen fun r _ _ _ _ _ hr hm hb => ?_
    subst hr
    exact ih r e hm hb
  | @define _ _ s body body' k k' _ _ ihbody ih =>
    intro m m' b b' hm hb
    rw [run_define s body k, run_define s body' k']
    refine (runAlike_define s (ihbody · e) hm hb).andThen fun r _ _ _ _ _ hr hm hb => ?_
    subst hr
    exact ih r e hm hb
  | @when _ _ cond cond' body body' k k' hcond _ _ ihbody ih =>
    intro m m' b b' hm hb
    rw [run_when cond body k, run_when cond' body' k']
    refine (runAlike_when hcond (ihbody e) hm hb).andThen fun r _ _ _ _ _ hr hm hb => ?_
    subst hr
    exact ih r e hm hb
  | @choose _ _ cond cond' body body' other other' k k' hcond _ _ _ ihbody ihother ih =>
    intro m m' b b' hm hb
    rw [run_choose cond body other k, run_choose cond' body' other' k']
    refine (runAlike_choose hcond (ihbody e) (ihother e) hm hb).andThen
      fun r _ _ _ _ _ hr hm hb => ?_
    subst hr
    exact ih r e hm hb
  | @build _ _ wanted main main' k k' _ _ ihmain ih =>
    intro m m' b b' hm hb
    rw [run_build wanted main k, run_build wanted main' k']
    exact (runAlike_build wanted (ihmain · e) hm hb).andThen
      fun _ _ _ _ _ _ hr hm hb => ih _ _ hr e hm hb
  | @fresh _ _ _ B policy body body' k k' _ _ ihbody ih =>
    -- the other builder has no history, so nothing is shifted on it
    intro m m' b b' hm hb
    obtain ⟨ho, hm₁, -⟩ := ihbody 0 hm (.new d policy)
    simp only [Program.run]
    generalize body.run m (.new policy) = ran at ho hm₁ ⊢
    generalize body'.run m' (.new policy) = ran' at ho hm₁ ⊢
    obtain ⟨o, m₁, b₁⟩ := ran
    obtain ⟨o', m₁', b₁'⟩ := ran'
    cases ho with
    | done ha => exact ih _ _ (.ok ha) e hm₁ hb
    | failed f => exact ih _ _ (.error f) e hm₁ hb
    | aborted => exact ⟨.aborted, hm₁, hb⟩
  | contain _ _ ihbody ih =>
    intro m m' b b' hm hb
    have hrun := ihbody e hm hb
    exact ih _ _ hrun.outcome e hrun.memory hrun.builder

end Program

end Runs

/-! ## Blind programs -/

theorem SameResult.imp {A A' : α → α → Prop} (hA : ∀ {a a'}, A a a' → A' a a')
    {r r' : Except Failure α} (h : SameResult A r r') : SameResult A' r r' := by
  cases h with
  | ok h => exact .ok (hA h)
  | error f => exact .error f

theorem SameResult.eq {A : α → α → Prop} (hA : ∀ {a a'}, A a a' → a = a') {r r' : Except Failure α}
    (h : SameResult A r r') : r = r' := by
  cases h with
  | ok h => rw [hA h]
  | error f => rfl

theorem SameOutcome.imp {A A' : α → α → Prop} (hA : ∀ {a a'}, A a a' → A' a a')
    {o o' : Outcome α} (h : SameOutcome A o o') : SameOutcome A' o o' := by
  cases h with
  | done h => exact .done (hA h)
  | failed f => exact .failed f
  | aborted => exact .aborted

theorem SameOutcome.eq {A : α → α → Prop} (hA : ∀ {a a'}, A a a' → a = a') {o o' : Outcome α}
    (h : SameOutcome A o o') : o = o' := by
  cases h with
  | done h => rw [hA h]
  | failed f => rfl
  | aborted => rfl

namespace Program

/-- Without a shift every program is alike to itself. -/
theorem alike_self (p : Program σ α) {A : α → α → Prop} (hA : ∀ a, A a a) : Alike 0 Eq A p p := by
  induction p with
  | pure a => exact .pure (hA a)
  | fail f => exact .fail f
  | abort => exact .abort
  | own act k ih =>
    refine .own (B := Eq) ?_ ?_
    · rintro m _ rfl
      exact ⟨rfl, rfl⟩
    · rintro x _ rfl
      exact ih x hA
  | look k ih =>
    refine .look fun v v' hv => ?_
    rw [← hv.eq]
    exact ih v hA
  | perform op k ih =>
    refine .perform (op.same_refl 0) fun r r' hr => ?_
    rw [← hr.eq Expr.same_zero.1]
    exact ih r hA
  | emit text k ih => exact .emit (sameText_refl 0 text) fun r => ih r hA
  | define s body k ihbody ih =>
    exact .define s (fun args => ihbody args (Expr.same_refl 0)) fun r => ih r hA
  | when cond body k ihbody ih =>
    exact .when (sameText_refl 0 cond) (ihbody fun _ => rfl) fun r => ih r hA
  | choose cond body other k ihbody ihother ih =>
    exact .choose (sameText_refl 0 cond) (ihbody fun _ => rfl) (ihother fun _ => rfl)
      fun r => ih r hA
  | build wanted main k ihmain ih =>
    refine .build wanted (fun f => ihmain f (Expr.same_refl 0)) fun r r' hr => ?_
    rw [← hr.eq Output.Same.eq]
    exact ih r hA
  | fresh policy body k ihbody ih =>
    refine .fresh policy (ihbody (A := Eq) fun _ => rfl) fun r r' hr => ?_
    rw [← hr.eq id]
    exact ih r hA
  | contain body k ihbody ih =>
    refine .contain (ihbody (A := Eq) fun _ => rfl) fun o o' ho => ?_
    rw [← ho.eq id]
    exact ih o hA

/-! ### Programs that are put together -/

section Together

variable {d : Nat} {S : σ → σ → Prop} {A : α → α → Prop} {A' : β → β → Prop}

theorem Alike.bind {p p' : Program σ α} (h : Alike d S A p p') {g g' : α → Program σ β}
    (hg : ∀ a a', A a a' → Alike d S A' (g a) (g' a')) : Alike d S A' (p.bind g) (p'.bind g') := by
  induction h with
  | pure ha => exact hg _ _ ha
  | fail f => exact .fail f
  | abort => exact .abort
  | own hact _ ih => exact .own hact fun x x' hx => ih x x' hx hg
  | look _ ih => exact .look fun v v' hv => ih v v' hv hg
  | perform hop _ ih => exact .perform hop fun r r' hr => ih r r' hr hg
  | emit htext _ ih => exact .emit htext fun r => ih r hg
  | define s hbody _ _ ih => exact .define s hbody fun r => ih r hg
  | when hcond hbody _ _ ih => exact .when hcond hbody fun r => ih r hg
  | choose hcond hbody hother _ _ _ ih => exact .choose hcond hbody hother fun r => ih r hg
  | build wanted hmain _ _ ih => exact .build wanted hmain fun r r' hr => ih r r' hr hg
  | fresh policy hbody _ _ ih => exact .fresh policy hbody fun r r' hr => ih r r' hr hg
  | contain hbody _ _ ih => exact .contain hbody fun o o' ho => ih o o' ho hg

theorem alike_ofExcept {r r' : Except Failure α} (h : SameResult A r r') :
    Alike d S A (ofExcept r) (ofExcept r') := by
  cases h with
  | ok h => exact .pure h
  | error f => exact .fail f

/-- An answer that is the same is related to itself. -/
theorem alike_ofExcept_self (r : Except Failure α) :
    Alike d S Eq (ofExcept r) (ofExcept r) := by
  cases r with
  | ok a => exact .pure rfl
  | error f => exact .fail f

theorem alike_op {o o' : Operation} (h : o.Same d o') : Alike d S (Expr.Same d) (op o) (op o') :=
  .perform h fun _ _ hr => alike_ofExcept hr

end Together

/-- Main bodies that do not look into the text of expressions and lines: they are alike to themselves,
whatever the shift. What they keep of texts is kept in a memory that is related to itself. -/
def IsBlind (m : σ) (main : Fragment → Program σ Expr) : Prop :=
  ∀ d, ∃ S : σ → σ → Prop, S m m ∧ ∀ f, Alike d S (Expr.Same d) (main f) (main f)

theorem alike_operand {d : Nat} {S : σ → σ → Prop} {p p' : Program σ Expr}
    (h : Alike d S (Expr.Same d) p p') (n : Node) :
    Alike d S (Operand.Same d) (n.operand p) (n.operand p') := by
  have hexpr : Alike d S (Operand.Same d) (p.bind fun e => .pure (.expr e))
      (p'.bind fun e => .pure (.expr e)) := h.bind fun _ _ he => .pure (.expr he)
  cases n with
  | literal v => exact .pure (.number v)
  | _ => exact hexpr

/-- Graphs do not look into texts. -/
theorem isBlind_graph (m : σ) (n : Node) : IsBlind m fun f => n.program f := by
  refine fun d => ⟨Eq, rfl, fun f => ?_⟩
  induction n with
  | coord => exact .pure (Expr.same_refl d _)
  | literal v => exact .pure (Expr.same_refl d _)
  | vec2 x y => exact .pure (Expr.same_refl d _)
  | uniform name =>
    refine alike_ofExcept ?_
    cases f.uniform name with
    | ok e => exact .ok (e.same_refl d)
    | error f => exact .error f
  | arithmetic op lhs rhs ihl ihr =>
    exact ihl.bind fun _ _ ha => (alike_operand ihr rhs).bind fun _ _ hb =>
      alike_op (.arithmetic ha hb)
  | intrinsic fn arg ih => exact ih.bind fun _ _ ha => alike_op (.intrinsic ha)
  | step arg edge iha ihe =>
    exact iha.bind fun _ _ ha => (alike_operand ihe edge).bind fun _ _ hb => alike_op (.step ha hb)
  | smoothstep arg edge₀ edge₁ iha ih₀ ih₁ =>
    exact iha.bind fun _ _ ha => (alike_operand ih₀ edge₀).bind fun _ _ hb =>
      (alike_operand ih₁ edge₁).bind fun _ _ hc => alike_op (.smoothstep ha hb hc)
  | channel c arg ih => exact ih.bind fun _ _ ha => alike_op (.channel ha)

/-! ## Builds -/

/-- A build from another number on, by a main body that is alike to itself. -/
theorem sameRun_shader {d : Nat} {S : σ → σ → Prop} {main : Fragment → Program σ Expr}
    (hmain : ∀ f, Alike d S (Expr.Same d) (main f) (main f)) {m : σ} (hm : S m m) {b b' : Builder}
    (hb : b.building = false) (hb' : b'.building = false) (hpolicy : b.policy = b'.policy)
    (hnext : b'.policy.start b'.next = d + b.policy.start b.next) (wanted : List Var) :
    SameRun (fun b b' => b'.next = d + b.next) S (SameResult (Output.Same d))
      ((Program.build wanted main .pure).run m b) ((Program.build wanted main .pure).run m b') := by
  rw [run_build_of_not_building hb, run_build_of_not_building hb']
  cases Builder.collectUniforms wanted with
  | error f => exact ⟨.done (.error f), hm, hnext⟩
  | ok uniforms =>
    have hbegun : (b.begun uniforms).Mirrors d d (b'.begun uniforms) :=
      { shift := .inr ⟨rfl, rfl⟩, policy := hpolicy, building := rfl, scopes := .cons .nil .nil
        functions := .nil, uniforms := rfl, next := hnext }
    have hend := ((hmain ⟨uniforms⟩).run d hm hbegun).settle
    exact ⟨hend.outcome, hend.memory, hend.builder.1⟩

/-- **The history of a builder shows in the numbers of temporaries only.**

* If every build starts at `0`, a builder without a running build does what a new one does.
* If numbers go on, a main body that does not look into texts ends alike on both, well or with the same
  failure. The shaders have the same uniforms, and their functions and lines are texts of one list of
  templates, with `v0`, `v1`, … on the new builder and the numbers from the counter on on the other one.
  The counter ends as much higher as it began. -/
theorem history_in_numbers {b : Builder} (hb : b.building = false) (wanted : List Var)
    (main : Fragment → Program σ Expr) (m : σ) :
    (b.policy = .perBuild →
      ((Program.build wanted main .pure).run m b).1 =
          ((Program.build wanted main .pure).run m (.new .perBuild)).1 ∧
        ((Program.build wanted main .pure).run m b).2.1 =
          ((Program.build wanted main .pure).run m (.new .perBuild)).2.1) ∧
    (b.policy = .persistent → IsBlind m main →
      SameOutcome (SameResult (Output.OfTemplates b.next))
          ((Program.build wanted main .pure).run m (.new .persistent)).1
          ((Program.build wanted main .pure).run m b).1 ∧
        ((Program.build wanted main .pure).run m b).2.2.next =
          b.next + ((Program.build wanted main .pure).run m (.new .persistent)).2.2.next) := by
  refine ⟨fun hp => ?_, fun hp hblind => ?_⟩
  · have hmain : ∀ f, Alike 0 Eq (Expr.Same 0) (main f) (main f) :=
      fun f => alike_self (main f) (Expr.same_refl 0)
    have hnext : 0 + (Builder.new .perBuild).policy.start (Builder.new .perBuild).next =
        b.policy.start b.next := by simp [hp, CounterPolicy.start, Builder.new]
    have hidle : (Builder.new .perBuild).building = false := rfl
    have hrun := sameRun_shader hmain (rfl : m = m) hidle hb hp.symm hnext.symm wanted
    exact ⟨(hrun.outcome.eq fun hr => hr.eq Output.Same.eq).symm, hrun.memory.symm⟩
  · obtain ⟨S, hm, hmain⟩ := hblind b.next
    have hnext : b.policy.start b.next =
        b.next + (Builder.new .persistent).policy.start (Builder.new .persistent).next := by
      simp [hp, CounterPolicy.start, Builder.new]
    have hidle : (Builder.new .persistent).building = false := rfl
    have hrun := sameRun_shader hmain hm hidle hb hp.symm hnext wanted
    exact ⟨hrun.outcome.imp fun hr => hr.imp Output.Same.ofTemplates, hrun.builder⟩

/-- The head of a function of one scalar. -/
def halfSignature : Signature := ⟨"half", .float, [⟨"p", .float⟩]⟩

/-- A main body that defines a function, uses the text of an expression as a condition and in a line,
and keeps the expression in its memory. -/
def halving (f : Fragment) : Program (List Expr) Expr := do
  let half ← function halfSignature fun args =>
    op (.arithmetic .div (args.headD f.coord) (.number (.ofNat 2)))
  let x ← op (.channel .x f.coord)
  modify (x :: ·)
  ifBlock (x.code ++ " > 0.0") (line ("t = " ++ x.code ++ ";"))
  let kept ← memory
  op (.call half [.expr (kept.headD f.coord)])

theorem isBlind_halving : IsBlind [] halving := by
  refine fun d => ⟨List.Forall₂ (Expr.Same d), .nil, fun f => ?_⟩
  let S := List.Forall₂ (Expr.Same d)
  have hdefine (body : List Expr → Program (List Expr) Expr)
      (hbody : ∀ args, Alike d S (Expr.Same d) (body args) (body args)) :
      Alike d S Eq (function halfSignature body) (function halfSignature body) :=
    .define _ hbody alike_ofExcept_self
  refine (hdefine _ fun args => alike_op (Operation.same_refl d _)).bind ?_
  rintro half _ rfl
  refine (alike_op (.channel (f.coord.same_refl d))).bind fun x x' hx => ?_
  have hkeep : Alike d S Eq (modify (x :: ·)) (modify (x' :: ·)) :=
    .own (fun m m' hm => ⟨rfl, .cons hx hm⟩) fun _ _ h => .pure h
  refine hkeep.bind fun _ _ _ => ?_
  have hline : Alike d S Eq (line ("t = " ++ x.code ++ ";")) (line ("t = " ++ x'.code ++ ";")) :=
    .emit ((hx.code.after "t = ").before ";") alike_ofExcept_self
  have hblock : Alike d S Eq (ifBlock (x.code ++ " > 0.0") (line ("t = " ++ x.code ++ ";")))
      (ifBlock (x'.code ++ " > 0.0") (line ("t = " ++ x'.code ++ ";"))) :=
    .when (hx.code.before " > 0.0") hline alike_ofExcept_self
  refine hblock.bind fun _ _ _ => ?_
  have hkept : Alike d S S memory memory := .own (fun m m' hm => ⟨hm, hm⟩) fun _ _ h => .pure h
  refine hkept.bind fun kept kept' hkept => ?_
  have harg := headD_of_forall₂ hkept (f.coord.same_refl d)
  exact alike_op (.call (.cons (.expr harg) .nil))

/-- The same shader on a new builder and after seven temporaries, for both ways of numbering. -/
theorem history_in_numbers_halving :
    (∃ out out' m m' b b',
      (Program.build [] halving .pure).run [] (.new .persistent) = (.done (.ok out), m, b) ∧
      (Program.build [] halving .pure).run [] { Builder.new .persistent with next := 7 } =
        (.done (.ok out'), m', b') ∧ out.OfTemplates 7 out' ∧ b'.next = 7 + b.next) ∧
    ((Program.build [] halving .pure).run [] { Builder.new .perBuild with next := 7 }).1 =
      ((Program.build [] halving .pure).run [] (.new .perBuild)).1 := by
  let b (policy : CounterPolicy) : Builder := { Builder.new policy with next := 7 }
  have hb (policy : CounterPolicy) : (b policy).building = false := rfl
  refine ⟨?_, ((history_in_numbers (hb .perBuild) [] halving []).1 rfl).1⟩
  obtain ⟨ho, hn⟩ := (history_in_numbers (hb .persistent) [] halving []).2 rfl isBlind_halving
  have hdone (b : Builder) (hb : b.building = false) (hs : b.policy = .persistent) :
      ∃ out m b', (Program.build [] halving .pure).run [] b = (.done (.ok out), m, b') := by
    obtain ⟨policy, building, scopes, functions, uniforms, next, journal⟩ := b
    cases hb
    cases hs
    rw [run_build_of_not_building rfl]
    exact ⟨_, _, _, rfl⟩
  obtain ⟨out, m, b₁, hnew⟩ := hdone (.new .persistent) rfl rfl
  obtain ⟨out', m', b₁', hreused⟩ := hdone (b .persistent) rfl rfl
  rw [hnew, hreused] at ho hn
  cases ho with
  | done hr =>
    cases hr with
    | ok hout => exact ⟨out, out', m, m', b₁, b₁', hnew, hreused, hout, hn⟩

end Program

end Shader
