import Shader.Proofs.Rollback

/-!
# Failures and the functions they belong to

A failure passes out of the bodies of functions, conditionals and builds, perhaps of several builders,
unless it is caught. On its way it gets the name of the innermost function whose body it leaves, and
nothing else happens to it.

* `Failure.passed`: a failure after it has left the bodies of functions;
* `Program.Refused`: the calls that fail before any of their bodies is run;
* `Program.Raises`: a run comes to a failure in the bodies of the given functions, and nobody catches
  it; **`Raises.run_eq`**: the run fails, and how;
* **`failures_name_innermost`**: with that, what counts as inside a function.
-/

namespace Shader

variable {σ α β : Type}

/-- A failure after it has left the bodies of the functions with the given names, which were entered in
this order: it belongs to the innermost one, unless it belonged to a function before. -/
def Failure.passed (f : Failure) (names : List String) : Failure :=
  ⟨f.cause, f.scope.or names.getLast?⟩

@[simp] theorem Failure.passed_nil (f : Failure) : f.passed [] = f := by
  simp [passed]

/-- To leave one body more is to be placed in one function more. -/
theorem Failure.inScope_passed (f : Failure) (name : String) (names : List String) :
    (f.passed names).inScope name = f.passed (name :: names) := by
  simp only [passed, inScope, Option.or_assoc]
  cases names with
  | nil => rfl
  | cons n ns => rw [List.getLast?_cons_cons, List.getLast?_eq_some_getLast (by simp), Option.some_or]

namespace Program

/-! ## Calls that are refused -/

/-- A call fails at once, and none of its bodies is run. -/
inductive Refused : {α : Type} → Program σ (Except Failure α) → Builder → Failure → Prop
  | perform {op : Operation} {b : Builder} {f : Failure} (h : b.perform op = .error f) :
    Refused (.perform op .pure) b f
  | emit {text : String} {b : Builder} {f : Failure} (h : b.emit (.raw text) = .error f) :
    Refused (.emit text .pure) b f
  | idleDefine {s : Signature} {body : List Expr → Program σ Expr} {b : Builder}
    (hw : b.isWriting = false) :
    Refused (.define s body .pure) b (.ofMisuse (.outsideBuild "define_function"))
  | deepDefine {s : Signature} {body : List Expr → Program σ Expr} {b : Builder}
    (hw : b.isWriting = true) (hd : maxDepth ≤ b.depth) :
    Refused (.define s body .pure) b (.ofMisuse (.tooDeep maxDepth))
  | idleWhen {cond : String} {body : Program σ Unit} {b : Builder} (hw : b.isWriting = false) :
    Refused (.when cond body .pure) b (.ofMisuse (.outsideBuild "if_block"))
  | idleChoose {cond : String} {body other : Program σ Unit} {b : Builder}
    (hw : b.isWriting = false) :
    Refused (.choose cond body other .pure) b (.ofMisuse (.outsideBuild "if_else"))
  | nestedBuild {wanted : List Var} {main : Fragment → Program σ Expr} {b : Builder}
    (hb : b.building = true) : Refused (.build wanted main .pure) b (.ofMisuse .nestedBuild)
  | uniforms {wanted : List Var} {main : Fragment → Program σ Expr} {b : Builder} {f : Failure}
    (hb : b.building = false) (hu : Builder.collectUniforms wanted = .error f) :
    Refused (.build wanted main .pure) b f

theorem Refused.run_eq {call : Program σ (Except Failure α)} {b : Builder} {f : Failure}
    (h : call.Refused b f) (m : σ) : ∃ b', call.run m b = (.done (.error f), m, b') := by
  cases h with
  | perform h => exact ⟨b, by simp only [run, h]⟩
  | emit h => exact ⟨b, by simp only [run, h]⟩
  | idleDefine hw => exact ⟨b, run_define_of_not_isWriting hw⟩
  | deepDefine hw hd => exact ⟨b, run_define_of_le hw hd⟩
  | idleWhen hw => exact ⟨b, run_when_of_not_isWriting hw⟩
  | idleChoose hw => exact ⟨b, run_choose_of_not_isWriting hw⟩
  | nestedBuild hb => exact ⟨b, run_build_of_building hb⟩
  | uniforms hb hu => exact ⟨_, by rw [run_build_of_not_building hb, hu]⟩

/-! ## Failures that are not caught -/

/-- While a program runs, started with a memory and a builder, the failure `f` arises, and the bodies of
the functions `names` are running then, the outermost first. Nobody catches it on its way out: whatever
answers with a failure, the program goes on by failing with it. -/
inductive Raises :
    {α : Type} → Program σ α → σ → Builder → (names : List String) → (f : Failure) → Prop
  /-- A caller fails. -/
  | fail {α : Type} {m : σ} {b : Builder} {f : Failure} : Raises (.fail f : Program σ α) m b [] f
  /-- A call is refused. -/
  | refused {α β : Type} {call : Program σ (Except Failure β)}
    {k : Except Failure β → Program σ α} {m : σ} {b : Builder} {f : Failure}
    (h : call.Refused b f) (hk : k (.error f) = .fail f) : Raises (call.bind k) m b [] f
  /-- The body of a function answers a value of another type than it should. -/
  | result {α : Type} {s : Signature} {body : List Expr → Program σ Expr}
    {k : Except Failure Callee → Program σ α} {m m₁ : σ} {b b₁ : Builder} {value : Expr}
    {f : Failure} (hw : b.isWriting = true) (hd : b.depth < maxDepth)
    (hbody : (body (s.params.map (·.expr))).run m b.opened = (.done value, m₁, b₁))
    (ht : value.ty ≠ s.result)
    (hf : f = mismatch ("return of " ++ s.name) s.result.keyword value.ty)
    (hk : k (.error (f.passed [s.name])) = .fail (f.passed [s.name])) :
    Raises (.define s body k) m b [s.name] f
  /-- The body of a function comes to its end with other scopes open than its own. -/
  | unbalanced {α : Type} {s : Signature} {body : List Expr → Program σ Expr}
    {k : Except Failure Callee → Program σ α} {m m₁ : σ} {b b₁ : Builder} {value : Expr}
    {f : Failure} (hw : b.isWriting = true) (hd : b.depth < maxDepth)
    (hbody : (body (s.params.map (·.expr))).run m b.opened = (.done value, m₁, b₁))
    (ht : value.ty = s.result) (hscopes : b₁.depth ≠ b.depth + 1)
    (hf : f = .ofMisuse (.unbalanced b₁.depth (b.depth + 1)))
    (hk : k (.error (f.passed [s.name])) = .fail (f.passed [s.name])) :
    Raises (.define s body k) m b [s.name] f
  /-- The main body of a build comes to its end with other scopes open than its own. -/
  | scopesLeft {α : Type} {wanted uniforms : List Var} {main : Fragment → Program σ Expr}
    {k : Except Failure Output → Program σ α} {m m₁ : σ} {b b₁ : Builder} {value : Expr}
    {f : Failure} (hb : b.building = false) (hu : Builder.collectUniforms wanted = .ok uniforms)
    (hmain : (main ⟨uniforms⟩).run m (b.begun uniforms) = (.done value, m₁, b₁))
    (hscopes : b₁.depth ≠ 1) (hf : f = .ofMisuse (.scopesLeft b₁.depth))
    (hk : k (.error f) = .fail f) : Raises (.build wanted main k) m b [] f
  | inFunction {α : Type} {s : Signature} {body : List Expr → Program σ Expr}
    {k : Except Failure Callee → Program σ α} {m : σ} {b : Builder} {names : List String}
    {f : Failure} (hw : b.isWriting = true) (hd : b.depth < maxDepth)
    (h : Raises (body (s.params.map (·.expr))) m b.opened names f)
    (hk : k (.error (f.passed (s.name :: names))) = .fail (f.passed (s.name :: names))) :
    Raises (.define s body k) m b (s.name :: names) f
  | inBlock {α : Type} {cond : String} {body : Program σ Unit}
    {k : Except Failure Unit → Program σ α} {m : σ} {b : Builder} {names : List String}
    {f : Failure} (hw : b.isWriting = true) (h : Raises body m (b.written (.opening cond)) names f)
    (hk : k (.error (f.passed names)) = .fail (f.passed names)) :
    Raises (.when cond body k) m b names f
  | inFirst {α : Type} {cond : String} {body other : Program σ Unit}
    {k : Except Failure Unit → Program σ α} {m : σ} {b : Builder} {names : List String}
    {f : Failure} (hw : b.isWriting = true) (h : Raises body m (b.written (.opening cond)) names f)
    (hk : k (.error (f.passed names)) = .fail (f.passed names)) :
    Raises (.choose cond body other k) m b names f
  | inSecond {α : Type} {cond : String} {body other : Program σ Unit}
    {k : Except Failure Unit → Program σ α} {m m₁ : σ} {b b₁ : Builder} {names : List String}
    {f : Failure} (hw : b.isWriting = true)
    (hbody : body.run m (b.written (.opening cond)) = (.done (), m₁, b₁))
    (h : Raises other m₁ ((b₁.written .closing).written .otherwise) names f)
    (hk : k (.error (f.passed names)) = .fail (f.passed names)) :
    Raises (.choose cond body other k) m b names f
  | inBuild {α : Type} {wanted uniforms : List Var} {main : Fragment → Program σ Expr}
    {k : Except Failure Output → Program σ α} {m : σ} {b : Builder} {names : List String}
    {f : Failure} (hb : b.building = false) (hu : Builder.collectUniforms wanted = .ok uniforms)
    (h : Raises (main ⟨uniforms⟩) m (b.begun uniforms) names f)
    (hk : k (.error (f.passed names)) = .fail (f.passed names)) :
    Raises (.build wanted main k) m b names f
  /-- On another builder, which is new. -/
  | inFresh {α β : Type} {policy : CounterPolicy} {body : Program σ β}
    {k : Except Failure β → Program σ α} {m : σ} {b : Builder} {names : List String} {f : Failure}
    (h : Raises body m (.new policy) names f)
    (hk : k (.error (f.passed names)) = .fail (f.passed names)) :
    Raises (.fresh policy body k) m b names f
  | inContained {α β : Type} {body : Program σ β} {k : Outcome β → Program σ α} {m : σ}
    {b : Builder} {names : List String} {f : Failure} (h : Raises body m b names f)
    (hk : k (.failed (f.passed names)) = .fail (f.passed names)) :
    Raises (.contain body k) m b names f
  /-- After a part of the program has answered. -/
  | next {α β : Type} {p : Program σ α} {g : α → Program σ β} {m m₁ : σ} {b b₁ : Builder} {x : α}
    {names : List String} {f : Failure} (hp : p.run m b = (.done x, m₁, b₁))
    (h : Raises (g x) m₁ b₁ names f) : Raises (p.bind g) m b names f

/-- What would come after a failure does not matter. -/
theorem Raises.bind {p : Program σ α} {m : σ} {b : Builder} {names : List String} {f : Failure}
    (h : p.Raises m b names f) (g : α → Program σ β) : (p.bind g).Raises m b names f := by
  induction h with
  | fail => exact .fail
  | refused h hk =>
    rw [bind_assoc]
    exact .refused h (by rw [hk]; rfl)
  | result hw hd hbody ht hf hk => exact .result hw hd hbody ht hf (by rw [hk]; rfl)
  | unbalanced hw hd hbody ht hscopes hf hk =>
    exact .unbalanced hw hd hbody ht hscopes hf (by rw [hk]; rfl)
  | scopesLeft hb hu hmain hscopes hf hk =>
    exact .scopesLeft hb hu hmain hscopes hf (by rw [hk]; rfl)
  | inFunction hw hd h hk _ => exact .inFunction hw hd h (by rw [hk]; rfl)
  | inBlock hw h hk _ => exact .inBlock hw h (by rw [hk]; rfl)
  | inFirst hw h hk _ => exact .inFirst hw h (by rw [hk]; rfl)
  | inSecond hw hbody h hk _ => exact .inSecond hw hbody h (by rw [hk]; rfl)
  | inBuild hb hu h hk _ => exact .inBuild hb hu h (by rw [hk]; rfl)
  | inFresh h hk _ => exact .inFresh h (by rw [hk]; rfl)
  | inContained h hk _ => exact .inContained h (by rw [hk]; rfl)
  | next hp _ ih =>
    rw [bind_assoc]
    exact .next hp (ih g)

/-- A call that answers with a failure which is passed on. -/
theorem run_bind_of_error {call : Program σ (Except Failure β)}
    {k : Except Failure β → Program σ α} {m m₁ : σ} {b b₁ : Builder} {f : Failure}
    (h : call.run m b = (.done (.error f), m₁, b₁)) (hk : k (.error f) = .fail f) :
    (call.bind k).run m b = (.failed f, m₁, b₁) := by
  rw [run_bind, h]
  simp only [Outcome.andThen, hk, run]

/-- A definition whose body fails answers with that failure, placed in the function, whatever scopes the
body has left open. -/
theorem run_define_of_failed {s : Signature} {body : List Expr → Program σ Expr} {m m₁ : σ}
    {b b₁ : Builder} {f : Failure} (hw : b.isWriting = true) (hd : b.depth < maxDepth)
    (h : (body (s.params.map (·.expr))).run m b.opened = (.failed f, m₁, b₁)) :
    ∃ b', (Program.define s body .pure).run m b = (.done (.error (f.inScope s.name)), m₁, b') := by
  rw [run_define_of_isWriting hw hd, h]
  exact ⟨_, rfl⟩

/-- A body that has answered a value of the wrong type has failed, whatever scopes it has left open. -/
theorem run_define_of_result {s : Signature} {body : List Expr → Program σ Expr} {m m₁ : σ}
    {b b₁ : Builder} {value : Expr} (hw : b.isWriting = true) (hd : b.depth < maxDepth)
    (h : (body (s.params.map (·.expr))).run m b.opened = (.done value, m₁, b₁))
    (ht : value.ty ≠ s.result) :
    ∃ b', (Program.define s body .pure).run m b = (.done (.error
      ((mismatch ("return of " ++ s.name) s.result.keyword value.ty).inScope s.name)), m₁, b') := by
  rw [run_define_of_isWriting hw hd, h]
  simp only [Outcome.close, Builder.returnValue, if_neg ht]
  exact ⟨_, rfl⟩

/-- A body that has answered well with other scopes open than its own has failed. -/
theorem run_define_of_unbalanced {s : Signature} {body : List Expr → Program σ Expr} {m m₁ : σ}
    {b b₁ : Builder} {value : Expr} (hw : b.isWriting = true) (hd : b.depth < maxDepth)
    (h : (body (s.params.map (·.expr))).run m b.opened = (.done value, m₁, b₁))
    (ht : value.ty = s.result) (hscopes : b₁.depth ≠ b.depth + 1) :
    ∃ b', (Program.define s body .pure).run m b = (.done (.error
      ((Failure.ofMisuse (.unbalanced b₁.depth (b.depth + 1))).inScope s.name)), m₁, b') := by
  have hopened : b.opened.isWriting = true :=
    Builder.isWriting_iff.2 ⟨(Builder.isWriting_iff.1 hw).1, List.cons_ne_nil _ _⟩
  have hext := (body (s.params.map (·.expr))).run_extends m b.opened (Builder.isWriting_iff.1 hw).1
  rw [h] at hext
  have hemit := Builder.emit_of_isWriting (hext.isWriting hopened) (.result value)
  rw [run_define_of_isWriting hw hd, h]
  simp only [Outcome.close, Builder.returnValue, if_pos ht, hemit, Builder.closeFunction,
    Builder.closeScope, Builder.depth_written, if_neg hscopes]
  exact ⟨_, rfl⟩

/-- A main body that has answered with other scopes open than its own has failed. -/
theorem run_build_of_scopesLeft {wanted uniforms : List Var} {main : Fragment → Program σ Expr}
    {m m₁ : σ} {b b₁ : Builder} {value : Expr} (hb : b.building = false)
    (hu : Builder.collectUniforms wanted = .ok uniforms)
    (h : (main ⟨uniforms⟩).run m (b.begun uniforms) = (.done value, m₁, b₁)) (hscopes : b₁.depth ≠ 1) :
    ∃ b', (Program.build wanted main .pure).run m b =
      (.done (.error (.ofMisuse (.scopesLeft b₁.depth))), m₁, b') := by
  have hext := (main ⟨uniforms⟩).run_extends m (b.begun uniforms) rfl
  rw [h] at hext
  have hw : b₁.isWriting = true := hext.isWriting rfl
  rw [run_build_of_not_building hb, hu]
  simp only [h, Outcome.settle, Builder.complete_of_isWriting hw, if_neg hscopes]
  exact ⟨_, rfl⟩

/-- **A failure that is not caught ends the run**, and it belongs to the innermost function. -/
theorem Raises.run_eq {p : Program σ α} {m : σ} {b : Builder} {names : List String} {f : Failure}
    (h : p.Raises m b names f) : ∃ m' b', p.run m b = (.failed (f.passed names), m', b') := by
  induction h with
  | fail => exact ⟨_, _, by rw [Failure.passed_nil]; rfl⟩
  | @refused _ _ call k m b f h hk =>
    obtain ⟨b', hcall⟩ := h.run_eq m
    exact ⟨m, b', by rw [Failure.passed_nil, run_bind_of_error hcall hk]⟩
  | @result _ s body k m m₁ b b₁ value f hw hd hbody ht hf hk =>
    obtain ⟨b', hcall⟩ := run_define_of_result hw hd hbody ht
    rw [← hf, ← Failure.passed_nil f, Failure.inScope_passed] at hcall
    exact ⟨m₁, b', run_bind_of_error hcall hk⟩
  | @unbalanced _ s body k m m₁ b b₁ value f hw hd hbody ht hscopes hf hk =>
    obtain ⟨b', hcall⟩ := run_define_of_unbalanced hw hd hbody ht hscopes
    rw [← hf, ← Failure.passed_nil f, Failure.inScope_passed] at hcall
    exact ⟨m₁, b', run_bind_of_error hcall hk⟩
  | @scopesLeft _ wanted uniforms main k m m₁ b b₁ value f hb hu hmain hscopes hf hk =>
    obtain ⟨b', hcall⟩ := run_build_of_scopesLeft hb hu hmain hscopes
    rw [← hf] at hcall
    rw [Failure.passed_nil]
    exact ⟨m₁, b', run_bind_of_error hcall hk⟩
  | @inFunction _ s body k m b names f hw hd h hk ih =>
    obtain ⟨m₁, b₁, hbody⟩ := ih
    obtain ⟨b', hcall⟩ := run_define_of_failed hw hd hbody
    rw [Failure.inScope_passed] at hcall
    exact ⟨m₁, b', run_bind_of_error hcall hk⟩
  | @inBlock _ cond body k m b names f hw h hk ih =>
    obtain ⟨m₁, b₁, hbody⟩ := ih
    have hcall := (run_when_eq_error hw).2 ⟨b₁, hbody, rfl⟩
    exact ⟨m₁, _, run_bind_of_error hcall hk⟩
  | @inFirst _ cond body other k m b names f hw h hk ih =>
    obtain ⟨m₁, b₁, hbody⟩ := ih
    have hcall : (Program.choose cond body other .pure).run m b = _ :=
      (run_choose_eq_error hw).2 (.inl ⟨b₁, hbody, rfl⟩)
    exact ⟨m₁, _, run_bind_of_error hcall hk⟩
  | @inSecond _ cond body other k m m₁ b b₁ names f hw hbody h hk ih =>
    obtain ⟨m₂, b₂, hother⟩ := ih
    have hcall := (run_choose_eq_error hw).2 (.inr ⟨m₁, b₁, b₂, hbody, hother, rfl⟩)
    exact ⟨m₂, _, run_bind_of_error hcall hk⟩
  | @inBuild _ wanted uniforms main k m b names f hb hu h hk ih =>
    obtain ⟨m₁, b₁, hmain⟩ := ih
    have hcall : (Program.build wanted main .pure).run m b =
        (.done (.error (f.passed names)), m₁, b₁.settle (.error (f.passed names))) := by
      rw [run_build_of_not_building hb, hu]
      simp only [hmain, Outcome.settle]
    exact ⟨m₁, _, run_bind_of_error hcall hk⟩
  | @inFresh _ _ policy body k m b names f h hk ih =>
    obtain ⟨m₁, b₁, hbody⟩ := ih
    have hcall : (Program.fresh policy body .pure).run m b =
        (.done (.error (f.passed names)), m₁, b) := by
      simp only [run, hbody]
    exact ⟨m₁, b, run_bind_of_error hcall hk⟩
  | @inContained _ _ body k m b names f h hk ih =>
    obtain ⟨m₁, b₁, hbody⟩ := ih
    exact ⟨m₁, b₁, by simp only [run, hbody, hk]⟩
  | @next _ _ p g m m₁ b b₁ x names f hp h ih =>
    obtain ⟨m₂, b₂, hrest⟩ := ih
    exact ⟨m₂, b₂, by rw [run_bind, hp]; exact hrest⟩

/-- **Failures name the innermost function.** A failure that arises while the bodies of the functions
`names` are running, and that nobody catches, ends the run: its cause is the same, and it belongs to the
function that it belonged to before or else to the last of `names`, if there is one. A definition that
is refused, on an idle builder or because 64 scopes are open, does not run its body and leaves all as it
was; its failure belongs to no function yet. Any other failure of a definition belongs to the function,
and that of the body goes before the check of the scopes, whatever scopes are open. -/
theorem failures_name_innermost :
    (∀ {σ α : Type} (p : Program σ α) (m : σ) (b : Builder) (names : List String) (f : Failure),
      p.Raises m b names f →
      ∃ m' b', p.run m b = (.failed ⟨f.cause, f.scope.or names.getLast?⟩, m', b')) ∧
    (∀ {σ : Type} (s : Signature) (body : List Expr → Program σ Expr) (m : σ) (b : Builder),
      b.isWriting = false → (Program.define s body .pure).run m b =
        (.done (.error ⟨.reentrancy (.outsideBuild "define_function"), none⟩), m, b)) ∧
    (∀ {σ : Type} (s : Signature) (body : List Expr → Program σ Expr) (m : σ) (b : Builder),
      b.isWriting = true → 64 ≤ b.depth → (Program.define s body .pure).run m b =
        (.done (.error ⟨.reentrancy (.tooDeep 64), none⟩), m, b)) ∧
    ∀ {σ : Type} (s : Signature) (body : List Expr → Program σ Expr) (m m₁ : σ) (b b₁ : Builder)
      (f : Failure), b.isWriting = true → b.depth < 64 →
      (body (s.params.map (·.expr))).run m b.opened = (.failed f, m₁, b₁) →
      ∃ b', (Program.define s body .pure).run m b =
        (.done (.error ⟨f.cause, f.scope.or (some s.name)⟩), m₁, b') :=
  ⟨fun _ _ _ _ _ h => h.run_eq, fun _ _ _ _ hw => run_define_of_not_isWriting hw,
    fun _ _ _ _ hw hd => run_define_of_le hw hd,
    fun _ _ _ _ _ _ _ hw hd hbody => run_define_of_failed hw hd hbody⟩

/-- A number, which every body below would answer. -/
def unit : Expr := ⟨"1.0", .float⟩

/-- A function without parameters. -/
def plain (name : String) : Signature := ⟨name, .float, []⟩

/-- A body in which a conditional fails: a number has no direction. -/
def failingBody : Program Unit Expr := do
  ifBlock "t > 0.0" do
    let _ ← op (.intrinsic .normalize unit)
  return unit

/-- A build with a function of that body. -/
def failingBuild : Program Unit Output :=
  shader [] fun _ => do
    let _ ← function (plain "inner") fun _ => failingBody
    return unit

/-- A build with a function whose body starts that build, on another builder. -/
def twoBuilders : Program Unit Output :=
  shader [] fun _ => do
    let _ ← function (plain "outer") fun _ => do
      let _ ← onNew .persistent failingBuild
      return unit
    return unit

/-- A build with a function whose body defines another one on an idle builder. -/
def idleBuilder : Program Unit Output :=
  shader [] fun _ => do
    let _ ← function (plain "outer") fun _ => do
      let _ ← onNew .perBuild (function (plain "refused") fun _ => failingBody)
      return unit
    return unit

/-- A body that fails while the scope of an abandoned function is open. -/
def openBody : Program Unit Expr :=
  .contain (.define (plain "abandoned") (fun _ => .abort) ofExcept) fun _ =>
    .fail ⟨.unknownUniform "k", none⟩

theorem raises_op {o : Operation} {m : σ} {b : Builder} {f : Failure} (h : b.perform o = .error f) :
    (op o).Raises m b [] f :=
  .refused (k := ofExcept) (.perform h) rfl

theorem raises_failingBody {m : Unit} {b : Builder} (hw : b.isWriting = true) :
    failingBody.Raises m b [] (mismatch "normalize" "vector" .float) := by
  have hop {b : Builder} : (op (.intrinsic .normalize unit)).Raises m b [] _ := raises_op rfl
  exact .bind (.inBlock hw (.bind hop _) rfl) _

theorem raises_twoBuilders : twoBuilders.Raises () (.new .perBuild) ["outer", "inner"]
    (mismatch "normalize" "vector" .float) := by
  have hinner : failingBuild.Raises () (.new .persistent) ["inner"] _ :=
    .inBuild rfl rfl (.bind (.inFunction rfl (by decide) (raises_failingBody rfl) rfl) _) rfl
  exact .inBuild rfl rfl
    (.bind (.inFunction rfl (by decide) (.bind (.inFresh hinner rfl) _) rfl) _) rfl

theorem raises_idleBuilder : idleBuilder.Raises () (.new .perBuild) ["outer"]
    (.ofMisuse (.outsideBuild "define_function")) := by
  have hrefused : (Program.define (plain "refused") (fun _ => failingBody) .pure).Refused
      (.new .perBuild) _ := .idleDefine rfl
  have hidle : (function (plain "refused") fun _ => failingBody).Raises () (.new .perBuild) [] _ :=
    .refused (k := ofExcept) hrefused rfl
  exact .inBuild rfl rfl
    (.bind (.inFunction rfl (by decide) (.bind (.inFresh hidle rfl) _) rfl) _) rfl

/-- The failure in two builders belongs to the inner function, the refused definition to the function
around it, and to none as long as there is none. The scope that is open at the end of a failing body is
not what is told. -/
theorem failures_name_innermost_twoBuilders :
    let full : Builder := { policy := .perBuild, building := true, scopes := List.replicate 64 [] }
    (∃ m' b', twoBuilders.run () (.new .perBuild) =
      (.failed ⟨.typeMismatch "normalize" "vector" .float, some "inner"⟩, m', b')) ∧
    (∃ m' b', idleBuilder.run () (.new .perBuild) =
      (.failed ⟨.reentrancy (.outsideBuild "define_function"), some "outer"⟩, m', b')) ∧
    (Program.define (plain "refused") (fun _ => failingBody) .pure).run () (.new .perBuild) =
      (.done (.error ⟨.reentrancy (.outsideBuild "define_function"), none⟩), (), .new .perBuild) ∧
    (Program.define (plain "refused") (fun _ => failingBody) .pure).run () full =
      (.done (.error ⟨.reentrancy (.tooDeep 64), none⟩), (), full) ∧
    ∃ b', (Program.define (plain "open") (fun _ => openBody) .pure).run ()
        ((Builder.new .perBuild).begun []) =
      (.done (.error ⟨.unknownUniform "k", some "open"⟩), (), b') := by
  intro full
  obtain ⟨hraises, hidle, hdeep, hbody⟩ := failures_name_innermost
  refine ⟨hraises _ _ _ _ _ raises_twoBuilders, hraises _ _ _ _ _ raises_idleBuilder,
    hidle _ _ _ _ rfl, hdeep _ _ _ _ (by decide) (by decide), ?_⟩
  have hopen : ∃ b₁, openBody.run () ((Builder.new .perBuild).begun []).opened =
      (.failed ⟨.unknownUniform "k", none⟩, (), b₁) := ⟨_, rfl⟩
  obtain ⟨b₁, hopen⟩ := hopen
  refine hbody (plain "open") (fun _ => openBody) () () _ b₁ _ rfl ?_ hopen
  decide

end Program

end Shader
