import Shader.Proofs.Calls

/-!
# What a run leaves alone

Inside a build a program writes behind what is written and above what is open. Whatever it does and
however it ends, the scopes it found are still there.

* `Builder.Extends`: a builder that carries on from another;
* `scopes_rollback_here`, `scopes_closeFunction`: a failed conditional and a closed function give
  back the scopes they started from;
* **`run_extends`**: a run inside a build carries the builder on;
* **`scopes_isolated`**: the scopes after a run, and after the definition of a function.
-/

namespace Shader

variable {σ α β : Type}

/-- What is reported inside a build: lines and functions. -/
def Event.isInner : Event → Bool
  | emitted _ _ | functionDefined _ => true
  | _ => false

namespace Builder

/-- `b'` carries on from `b`: the scopes of `b` lie below those opened since, with lines behind
those of the innermost; functions came behind those of `b`; the build is the same, and lines and
functions are all that was reported. -/
structure Extends (b b' : Builder) : Prop where
  scopes : ∃ above more, b'.scopes = above ++ b.scopes.modifyHead (· ++ more)
  functions : b.functions <+: b'.functions
  uniforms : b'.uniforms = b.uniforms
  policy : b'.policy = b.policy
  building : b'.building = b.building
  next : b.next ≤ b'.next
  journal : ∃ new, b'.journal = new ++ b.journal ∧ ∀ e ∈ new, e.isInner = true

namespace Extends

theorem refl (b : Builder) : b.Extends b where
  scopes := ⟨[], [], by cases b.scopes <;> simp⟩
  functions := List.prefix_rfl
  uniforms := rfl
  policy := rfl
  building := rfl
  next := Nat.le_refl _
  journal := ⟨[], rfl, by simp⟩

theorem trans {a b c : Builder} (h : a.Extends b) (h' : b.Extends c) : a.Extends c where
  scopes := by
    obtain ⟨above, more, hs⟩ := h.scopes
    obtain ⟨above', more', hs'⟩ := h'.scopes
    rw [hs] at hs'
    cases above with
    | nil =>
      refine ⟨above', more ++ more', ?_⟩
      rw [hs']
      cases a.scopes <;> simp
    | cons s above => exact ⟨above' ++ (s ++ more') :: above, more, by simp [hs']⟩
  functions := h.functions.trans h'.functions
  uniforms := h'.uniforms.trans h.uniforms
  policy := h'.policy.trans h.policy
  building := h'.building.trans h.building
  next := Nat.le_trans h.next h'.next
  journal := by
    obtain ⟨new, hj, hi⟩ := h.journal
    obtain ⟨new', hj', hi'⟩ := h'.journal
    refine ⟨new' ++ new, by rw [hj', hj, List.append_assoc], fun e he => ?_⟩
    exact (List.mem_append.1 he).elim (hi' e) (hi e)

/-- The same builder with the scopes of an earlier one. -/
theorem of_scopes_eq {b b' : Builder} (h : b.Extends b') :
    b.Extends { b' with scopes := b.scopes } where
  scopes := (refl b).scopes
  functions := h.functions
  uniforms := h.uniforms
  policy := h.policy
  building := h.building
  next := h.next
  journal := h.journal

theorem depth_le {b b' : Builder} (h : b.Extends b') : b.depth ≤ b'.depth := by
  obtain ⟨above, more, hs⟩ := h.scopes
  simp [depth, hs]

end Extends

/-! ## Single steps -/

theorem extends_written (b : Builder) (line : Line) : b.Extends (b.written line) where
  scopes := ⟨[], [line], rfl⟩
  functions := List.prefix_rfl
  uniforms := rfl
  policy := rfl
  building := rfl
  next := Nat.le_refl _
  journal := ⟨[.emitted b.depth line], rfl, by simp [Event.isInner]⟩

theorem extends_declared (b : Builder) (op : Operation) : b.Extends (b.declared op) where
  scopes := ⟨[], [.declare b.next op], rfl⟩
  functions := List.prefix_rfl
  uniforms := rfl
  policy := rfl
  building := rfl
  next := Nat.le_succ _
  journal := ⟨[.emitted b.depth (.declare b.next op)], rfl, by simp [Event.isInner]⟩

theorem extends_addFunction (b : Builder) (d : Definition) : b.Extends (b.addFunction d) where
  scopes := (Extends.refl b).scopes
  functions := List.prefix_append _ _
  uniforms := rfl
  policy := rfl
  building := rfl
  next := Nat.le_refl _
  journal := ⟨[.functionDefined d], rfl, by simp [Event.isInner]⟩

theorem extends_of_emit {b b' : Builder} {line : Line} (h : b.emit line = .ok b') :
    b.Extends b' := by
  obtain ⟨-, rfl⟩ := emit_eq_ok_iff.1 h
  exact b.extends_written line

theorem extends_of_perform {b b' : Builder} {op : Operation} {e : Expr}
    (h : b.perform op = .ok (e, b')) : b.Extends b' := by
  obtain ⟨-, -, -, rfl⟩ := perform_eq_ok_iff.1 h
  exact b.extends_declared op

/-- What extends the scope of a new function extends the builder it was opened on. -/
theorem Extends.of_opened {b b' : Builder} (h : b.opened.Extends b') : b.Extends b' where
  scopes := by
    obtain ⟨above, more, hs⟩ := h.scopes
    refine ⟨above ++ [more], [], ?_⟩
    rw [hs]
    cases hb : b.scopes <;> simp [opened, hb]
  functions := h.functions
  uniforms := h.uniforms
  policy := h.policy
  building := h.building
  next := h.next
  journal := h.journal

/-! ## A failed conditional -/

/-- **A rollback to where a conditional began gives back the scopes of that moment.** -/
theorem scopes_rollback_here {b b' : Builder} {above : List (List Line)} {more : List Line}
    (hs : b'.scopes = above ++ b.scopes.modifyHead (· ++ more)) :
    (b'.rollback b.here).scopes = b.scopes := by
  have hcut : (b'.cutTo b.depth).scopes = b.scopes.modifyHead (· ++ more) := by
    have := scopes_cutTo_append hs
    rwa [List.length_modifyHead] at this
  simp only [rollback, here, cutLines, hcut, lines]
  cases b.scopes <;> simp

theorem extends_rollback_here {b b' : Builder} (h : b.Extends b') :
    b.Extends (b'.rollback b.here) := by
  obtain ⟨above, more, hs⟩ := h.scopes
  have := h.of_scopes_eq
  rw [← scopes_rollback_here hs] at this
  exact this

/-! ## The end of a function -/

theorem extends_returnValue (b : Builder) (s : Signature) (value : Expr) :
    b.Extends (b.returnValue s value).2 := by
  obtain ⟨f, h⟩ | ⟨-, -, h⟩ := b.returnValue_cases s value
  · exact h ▸ Extends.refl b
  · exact h ▸ b.extends_written _

/-- Closing a scope leaves the scopes below it, whatever lies above. -/
theorem scopes_closeScope {b : Builder} {above outer : List (List Line)} {body : List Line}
    (h : b.scopes = above ++ body :: outer) :
    (b.closeScope (outer.length + 1)).2.scopes = outer := by
  unfold closeScope
  split
  case isTrue hd =>
    have : above = [] := by
      simp only [depth, h, List.length_append, List.length_cons] at hd
      exact List.eq_nil_of_length_eq_zero (by omega)
    simp [h, this]
  case isFalse =>
    have hs : b.scopes = (above ++ [body]) ++ outer := by simp [h]
    exact scopes_cutTo_append hs

/-- The fields that closing a scope does not touch. -/
theorem closeScope_fields (b : Builder) (depth : Nat) :
    (b.closeScope depth).2 = { b with scopes := (b.closeScope depth).2.scopes } := by
  unfold closeScope cutTo
  split <;> rfl

/-- **Closing a function gives back the scopes it was opened on**, kept or not. -/
theorem scopes_closeFunction {b b' : Builder} (h : b.opened.Extends b') (s : Signature)
    (ended : Except Failure Unit) :
    (b'.closeFunction s (b.depth + 1) ended).2.scopes = b.scopes := by
  obtain ⟨above, more, hs⟩ := h.scopes
  have hs : b'.scopes = above ++ more :: b.scopes := by simpa [opened] using hs
  have hclose := scopes_closeScope hs
  obtain ⟨-, hd, hc⟩ | ⟨f, hc⟩ := b'.closeFunction_cases s (b.depth + 1) ended
  · rw [hc]
    rw [show b.scopes.length + 1 = b.depth + 1 from rfl, closeScope, if_pos hd] at hclose
    exact hclose
  · rw [hc]
    exact hclose

theorem extends_closeFunction {b b' : Builder} (h : b.opened.Extends b') (s : Signature)
    (ended : Except Failure Unit) :
    b.Extends (b'.closeFunction s (b.depth + 1) ended).2 := by
  have hs := scopes_closeFunction h s ended
  obtain ⟨-, -, hc⟩ | ⟨f, hc⟩ := b'.closeFunction_cases s (b.depth + 1) ended
  · rw [hc] at hs ⊢
    have hkeep := h.of_opened.of_scopes_eq
    rw [← hs] at hkeep
    exact hkeep.trans (extends_addFunction _ _)
  · rw [hc, closeScope_fields] at hs ⊢
    have hdrop := h.of_opened.of_scopes_eq
    rw [← hs] at hdrop
    exact hdrop

end Builder

/-! ## Runs -/

/-- To go on after an outcome is to carry the builder on twice. -/
theorem Outcome.extends_andThen {b : Builder} {r : Outcome α × σ × Builder}
    {g : α → σ → Builder → Outcome β × σ × Builder} (h : b.Extends r.2.2)
    (hg : ∀ a m, r.2.2.Extends (g a m r.2.2).2.2) : b.Extends (Outcome.andThen r g).2.2 := by
  obtain ⟨o | f | _, m, b'⟩ := r
  · exact h.trans (hg o m)
  · exact h
  · exact h

theorem Outcome.extends_close {b : Builder} {r : Outcome Expr × σ × Builder} (s : Signature)
    (h : b.opened.Extends r.2.2) : b.Extends (Outcome.close s (b.depth + 1) r).2.2 := by
  obtain ⟨o | f | _, m, b'⟩ := r
  · exact Builder.extends_closeFunction (h.trans (b'.extends_returnValue s o)) s _
  · exact Builder.extends_closeFunction h s (.error f)
  · exact h.of_opened

theorem Outcome.extends_conclude {b : Builder} {r : Outcome Unit × σ × Builder}
    (h : b.Extends r.2.2) : b.Extends (Outcome.conclude b.here r).2.2 := by
  obtain ⟨o | f | _, m, b'⟩ := r
  · exact h
  · exact Builder.extends_rollback_here h
  · exact h

namespace Program

/-- What carries every builder on that is in a build. -/
def Carries (act : σ → Builder → Outcome α × σ × Builder) : Prop :=
  ∀ (m : σ) (b : Builder), b.building = true → b.Extends (act m b).2.2

theorem carries_branch {body : σ → Builder → Outcome Unit × σ × Builder} (hbody : Carries body)
    (head : Line) : Carries (branch head body) := by
  intro m b hb
  cases hw : b.isWriting with
  | false =>
    simp only [branch, Builder.emit_of_not_isWriting hw]
    exact .refl b
  | true =>
    rw [branch_of_isWriting hw]
    have h := b.extends_written head
    refine Outcome.extends_andThen (h.trans (hbody _ _ (h.building.trans hb))) fun _ m' => ?_
    split
    · exact Builder.extends_of_emit ‹_›
    · exact .refl _

theorem carries_define {body : List Expr → Program σ Expr} (hbody : ∀ args, Carries (body args).run)
    (s : Signature) : Carries (Program.define s body .pure).run := by
  intro m b hb
  cases hw : b.isWriting with
  | false => exact run_define_of_not_isWriting hw ▸ .refl b
  | true =>
    by_cases hd : b.depth < maxDepth
    · rw [run_define_of_isWriting hw hd]
      exact Outcome.extends_close s (hbody _ m b.opened hb)
    · exact run_define_of_le hw (Nat.le_of_not_lt hd) ▸ .refl b

theorem carries_when {body : Program σ Unit} (hbody : Carries body.run) (cond : String) :
    Carries (Program.when cond body .pure).run := by
  intro m b hb
  cases hw : b.isWriting with
  | false => exact run_when_of_not_isWriting hw ▸ .refl b
  | true =>
    rw [run_when_of_isWriting hw]
    exact Outcome.extends_conclude (carries_branch hbody _ m b hb)

theorem carries_choose {body other : Program σ Unit} (hbody : Carries body.run)
    (hother : Carries other.run) (cond : String) :
    Carries (Program.choose cond body other .pure).run := by
  intro m b hb
  cases hw : b.isWriting with
  | false => exact run_choose_of_not_isWriting hw ▸ .refl b
  | true =>
    rw [run_choose_of_isWriting hw]
    have h := carries_branch hbody (.opening cond) m b hb
    refine Outcome.extends_conclude (Outcome.extends_andThen h fun _ m' => ?_)
    exact carries_branch hother _ m' _ (h.building.trans hb)

/-- Going on after a call. -/
theorem carries_andThen {call : σ → Builder → Outcome α × σ × Builder}
    {k : α → σ → Builder → Outcome β × σ × Builder} (hcall : Carries call)
    (hk : ∀ a, Carries (k a)) : Carries fun m b => Outcome.andThen (call m b) k := by
  intro m b hb
  have h := hcall m b hb
  exact Outcome.extends_andThen h fun a m' => hk a m' _ (h.building.trans hb)

/-- **A run inside a build carries the builder on**, however it ends. -/
theorem run_extends (p : Program σ α) : Carries p.run := by
  induction p with
  | pure a => exact fun _ b _ => Builder.Extends.refl b
  | fail f => exact fun _ b _ => Builder.Extends.refl b
  | abort => exact fun _ b _ => Builder.Extends.refl b
  | own act k ih => exact fun m b hb => ih _ _ b hb
  | look k ih => exact fun m b hb => ih _ m b hb
  | perform op k ih =>
    intro m b hb
    simp only [run]
    split
    · have h := Builder.extends_of_perform ‹_›
      exact h.trans (ih _ _ _ (h.building.trans hb))
    · exact ih _ _ _ hb
  | emit line k ih =>
    intro m b hb
    simp only [run]
    split
    · have h := Builder.extends_of_emit ‹_›
      exact h.trans (ih _ _ _ (h.building.trans hb))
    · exact ih _ _ _ hb
  | define s body k ihb ih =>
    intro m b hb
    rw [run_define]
    exact carries_andThen (carries_define ihb s) ih m b hb
  | when cond body k ihb ih =>
    intro m b hb
    rw [run_when]
    exact carries_andThen (carries_when ihb cond) ih m b hb
  | choose cond body other k ihb iho ih =>
    intro m b hb
    rw [run_choose]
    exact carries_andThen (carries_choose ihb iho cond) ih m b hb
  | build us main k _ ih =>
    intro m b hb
    rw [run_build, run_build_of_building hb]
    exact ih _ m b hb
  | fresh policy body k _ ih =>
    -- the body works on another builder
    intro m b hb
    simp only [run]
    split
    · exact .refl b
    · exact ih _ _ b hb
    · exact ih _ _ b hb
  | contain body k ihb ih =>
    intro m b hb
    have h := ihb m b hb
    exact h.trans (ih _ _ _ (h.building.trans hb))

/-- A definition that comes to an end gives back the scopes it found. -/
theorem scopes_define {s : Signature} {body : List Expr → Program σ Expr} {m m' : σ}
    {b b' : Builder} {r : Except Failure Callee}
    (h : (Program.define s body .pure).run m b = (.done r, m', b')) : b'.scopes = b.scopes := by
  cases hw : b.isWriting with
  | false =>
    rw [run_define_of_not_isWriting hw] at h
    cases h
    rfl
  | true =>
    by_cases hd : b.depth < maxDepth
    · rw [run_define_of_isWriting hw hd] at h
      have hbody : b.opened.Extends _ := run_extends (body (s.params.map (·.expr))) m b.opened
        (Builder.isWriting_iff.1 hw).1
      generalize (body (s.params.map (·.expr))).run m b.opened = ended at h hbody
      obtain ⟨o | f | _, m₁, b₁⟩ := ended
      · cases h
        exact Builder.scopes_closeFunction (hbody.trans (b₁.extends_returnValue s o)) s _
      · cases h
        exact Builder.scopes_closeFunction hbody s (.error f)
      · cases h
    · rw [run_define_of_le hw (Nat.le_of_not_lt hd)] at h
      cases h
      rfl

/-- **Scopes are isolated.** Whatever a program does inside a build and however it ends, even
abandoned, the scopes below the innermost are as they were, the innermost has kept its lines, no
function is lost, and the build is the same. After the definition of a function, refused or not,
all the scopes are as they were. -/
theorem scopes_isolated :
    (∀ {σ α : Type} (p : Program σ α) (m : σ) (b : Builder) (live : List Line)
        (lower : List (List Line)), b.building = true → b.scopes = live :: lower →
      let b' := (p.run m b).2.2
      (∃ above more, b'.scopes = above ++ (live ++ more) :: lower) ∧ b.depth ≤ b'.depth ∧
        b.functions <+: b'.functions ∧ b'.uniforms = b.uniforms ∧ b'.policy = b.policy ∧
        b'.building = true) ∧
    ∀ {σ : Type} (s : Signature) (body : List Expr → Program σ Expr) (m m' : σ) (b b' : Builder)
      (r : Except Failure Callee),
      (Program.define s body .pure).run m b = (.done r, m', b') → b'.scopes = b.scopes := by
  refine ⟨fun p m b live lower hb hs => ?_, fun _ _ _ _ _ _ _ h => scopes_define h⟩
  have h := run_extends p m b hb
  refine ⟨?_, h.depth_le, h.functions, h.uniforms, h.policy, h.building.trans hb⟩
  obtain ⟨above, more, hrun⟩ := h.scopes
  exact ⟨above, more, by rw [hrun, hs]; rfl⟩

/-- A body that goes on after a function was abandoned in it leaves a scope open. The definition
fails, and the caller's scopes are as they were. -/
theorem scopes_isolated_left_open :
    let s : Signature := ⟨"f", .float, []⟩
    let inner : Program Unit Expr := .define s (fun _ => .emit "x;" fun _ => .abort) fun _ => .abort
    let body : List Expr → Program Unit Expr := fun _ => .contain inner fun _ => .pure ⟨"1.0", .float⟩
    let b : Builder := { policy := .perBuild, building := true, scopes := [[.raw "a;"], [.raw "b;"]] }
    (∃ above more, ((body []).run () b).2.2.scopes = above ++ ([.raw "a;"] ++ more) :: [[.raw "b;"]])
      ∧ ((Program.define s body .pure).run () b).1.toExcept =
        .ok (.error ⟨.reentrancy (.unbalanced 4 3), some "f"⟩)
      ∧ ((Program.define s body .pure).run () b).2.2.scopes = b.scopes := by
  intro s inner body b
  exact ⟨(scopes_isolated.1 (body []) () b [.raw "a;"] [[.raw "b;"]] rfl rfl).1, rfl,
    scopes_isolated.2 s body () () b _ (.error ⟨.reentrancy (.unbalanced 4 3), some "f"⟩) rfl⟩

end Program

end Shader
