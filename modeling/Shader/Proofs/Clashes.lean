import Shader.Document.Graph
import Shader.Proofs.Compilation
import Shader.Proofs.Numbering
import Shader.Proofs.Typing

/-!
# Names that clash with temporaries

Nothing keeps a caller from giving a uniform or a parameter the name of a temporary: a uniform of the
name `v0` is accepted, and the first operation of the build declares another `v0`. The names of a shader
are apart exactly if no caller has done so.

* `Output.NamesApart`: no temporary has the name of a uniform or of a parameter;
* `Program.uniforms_of_build`, `Program.bounds_of_build`: the uniforms and temporaries of a shader;
* `parts_of_graph`, `namesApart_of_graph`: those of a graph, and which of their names clash;
* **`names_apart`**: which names clash, for builds and for graph documents;
  **`names_apart_not_sine`**: a document with a clash.
-/

namespace Shader

variable {σ : Type}

/-- No temporary of a shader has the name of one of its uniforms, and none of a function has the name of
one of its parameters. -/
structure Output.NamesApart (o : Output) : Prop where
  uniforms : ∀ v ∈ o.uniforms, ∀ n ∈ o.temps, v.name ≠ tempName n
  params : ∀ d ∈ o.functions, ∀ p ∈ d.signature.params, ∀ n ∈ Shader.temps d.lines,
    p.name ≠ tempName n

theorem Output.namesApart_iff {o : Output} {wanted : List Var}
    (h : ∀ v, v ∈ o.uniforms ↔ v ∈ wanted) :
    o.NamesApart ↔ (∀ v ∈ wanted, ∀ n ∈ o.temps, v.name ≠ tempName n) ∧
      ∀ d ∈ o.functions, ∀ p ∈ d.signature.params, ∀ n ∈ Shader.temps d.lines,
        p.name ≠ tempName n := by
  constructor
  · exact fun ⟨hu, hp⟩ => ⟨fun v hv => hu v ((h v).2 hv), hp⟩
  · exact fun ⟨hu, hp⟩ => ⟨fun v hv => hu v ((h v).1 hv), hp⟩

/-! ## Uniforms -/

namespace Builder

theorem subset_of_addUniform {declared us : List Var} {v : Var}
    (h : addUniform declared v = .ok us) : v ∈ us ∧ declared ⊆ us := by
  unfold addUniform at h
  split at h
  case h_1 =>
    cases h
    exact ⟨by simp, List.subset_append_left _ _⟩
  case h_2 earlier hfind =>
    split at h
    case isFalse => cases h
    case isTrue hty =>
      cases h
      have hname : earlier.name = v.name := by simpa using List.find?_some hfind
      have hv : earlier = v := by
        cases earlier
        cases v
        simp_all
      exact ⟨hv ▸ List.mem_of_find?_eq_some hfind, List.Subset.refl _⟩

/-- **A build declares every uniform that was asked for.** -/
theorem subset_of_collectUniforms {wanted us : List Var} (h : collectUniforms wanted = .ok us) :
    wanted ⊆ us := by
  suffices hfold : ∀ declared, wanted.foldlM addUniform declared = .ok us →
      declared ⊆ us ∧ wanted ⊆ us from (hfold [] h).2
  clear h
  induction wanted with
  | nil =>
    intro declared h
    cases h
    exact ⟨List.Subset.refl _, List.nil_subset _⟩
  | cons v wanted ih =>
    intro declared h
    rw [List.foldlM_cons] at h
    cases hadd : addUniform declared v with
    | error f =>
      rw [hadd] at h
      cases h
    | ok declared' =>
      rw [hadd] at h
      obtain ⟨hdeclared, hwanted⟩ := ih declared' h
      obtain ⟨hv, hsub⟩ := subset_of_addUniform hadd
      exact ⟨List.Subset.trans hsub hdeclared, List.cons_subset.2 ⟨hdeclared hv, hwanted⟩⟩

end Builder

namespace Program

/-- The uniforms of a shader are those that its build was asked for. -/
theorem uniforms_of_build {wanted : List Var} {main : Fragment → Program σ Expr} {m m' : σ}
    {b b' : Builder} {out : Output}
    (h : (Program.build wanted main .pure).run m b = (.done (.ok out), m', b')) (v : Var) :
    v ∈ out.uniforms ↔ v ∈ wanted := by
  obtain ⟨-, uniforms, value, b₁, hu, hmain, -, -, rfl, -⟩ := run_build_eq_ok h
  have hext : (b.begun uniforms).Extends b₁ := by
    have := (main ⟨uniforms⟩).run_extends m (b.begun uniforms) rfl
    rwa [hmain] at this
  have huniforms : b₁.uniforms = uniforms := hext.uniforms
  rw [huniforms]
  exact ⟨mem_of_collectUniforms hu v, fun hv => Builder.subset_of_collectUniforms hu hv⟩

/-- The temporaries of a shader have numbers that its build has given. -/
theorem bounds_of_build {wanted : List Var} {main : Fragment → Program σ Expr} {m m' : σ}
    {b b' : Builder} {out : Output}
    (h : (Program.build wanted main .pure).run m b = (.done (.ok out), m', b')) :
    ∀ n ∈ out.temps, b.policy.start b.next ≤ n ∧ n < b'.next := fun n hn =>
  (numbered_of_build h).bounds n (flatMap_temps_bodies out ▸ hn)

end Program

/-! ## Graphs -/

namespace Builder

theorem temps_declarations (start : Nat) (ops : List Operation) :
    temps (declarations start ops) = List.range' start ops.length := by
  induction ops generalizing start with
  | nil => rfl
  | cons op ops ih =>
    have hcons : declarations start (op :: ops) =
        .declare start op :: declarations (start + 1) ops := by
      simp [Builder.declarations, List.mapIdx_cons, Nat.add_assoc, Nat.add_comm 1]
    rw [hcons, List.length_cons, List.range'_succ, ← ih (start + 1)]
    rfl

theorem functions_declaredAll (b : Builder) (ops : List Operation) :
    (b.declaredAll ops).functions = b.functions := by
  induction ops generalizing b with
  | nil => rfl
  | cons op ops ih => exact ih (b.declared op)

end Builder

/-- The shader of a graph has no functions, and a temporary for every operation of the graph. -/
theorem parts_of_graph {g : Graph} {m m' : σ} {b b' : Builder} {out : Output}
    (h : (g.program : Program σ Output).run m b = (.done out, m', b')) :
    (∀ v, v ∈ out.uniforms ↔ v ∈ g.uniforms) ∧ out.functions = [] ∧
      out.temps = List.range' (b.policy.start b.next) g.main.operations.length := by
  have hbuild := Program.run_shader_eq_done h
  have huniforms := Program.uniforms_of_build hbuild
  obtain ⟨-, uniforms, value, b₁, -, hmain, -, -, rfl, -⟩ := Program.run_build_eq_ok hbuild
  have hw : (b.begun uniforms).isWriting = true := rfl
  obtain ⟨t, x, ops, -, hrun, -, hwalked⟩ | ⟨f, b₂, -, hrun, -⟩ :=
    evaluates_node (σ := σ) ⟨uniforms⟩ g.main m (b.begun uniforms) hw
  · rw [hmain] at hrun
    cases hrun
    have hfunctions : ((b.begun uniforms).declaredAll ops).functions = [] :=
      Builder.functions_declaredAll (b.begun uniforms) ops
    have hlength : ops.length = g.main.operations.length := hwalked.becomes.length_eq.symm
    have htemps : temps (((b.begun uniforms).declaredAll ops).lines ++ [.color value]) =
        List.range' (b.policy.start b.next) ops.length := by
      rw [Builder.lines_declaredAll hw, temps_append, temps_append, Builder.temps_declarations,
        temps_singleton_of_none rfl, List.append_nil]
      rfl
    refine ⟨huniforms, hfunctions, ?_⟩
    rw [Output.temps, hfunctions, htemps, hlength]
    rfl
  · rw [hmain] at hrun
    cases hrun

/-- The names of the shader of a graph are apart exactly if no uniform has the name of one of the
temporaries of the operations. -/
theorem namesApart_of_graph {g : Graph} {m m' : σ} {b b' : Builder} {out : Output}
    (h : (g.program : Program σ Output).run m b = (.done out, m', b')) :
    out.NamesApart ↔ ∀ v ∈ g.uniforms, ∀ k < g.main.operations.length,
      v.name ≠ tempName (b.policy.start b.next + k) := by
  obtain ⟨huniforms, hfunctions, htemps⟩ := parts_of_graph h
  constructor
  · rintro ⟨hnames, -⟩ v hv k hk
    refine hnames v ((huniforms v).2 hv) _ ?_
    rw [htemps]
    exact List.mem_range'_1.2 ⟨Nat.le_add_right _ _, Nat.add_lt_add_left hk _⟩
  · refine fun hnames => ⟨fun v hv n hn => ?_, fun d hd => ?_⟩
    · rw [htemps] at hn
      obtain ⟨hle, hlt⟩ := List.mem_range'_1.1 hn
      have hne := hnames v ((huniforms v).1 hv) (n - b.policy.start b.next) (by omega)
      rwa [Nat.add_sub_cancel' hle] at hne
    · rw [hfunctions] at hd
      cases hd

theorem eq_done_of_toExcept {α : Type} {r : Outcome α} {x : α} (h : r.toExcept = .ok x) :
    r = .done x := by
  cases r with
  | done y =>
    cases h
    rfl
  | failed f => cases h
  | aborted => cases h

theorem eq_ok_of_toOption {ε α : Type} {r : Except ε α} {x : α} (h : r.toOption = some x) :
    r = .ok x := by
  cases r with
  | ok y =>
    cases h
    rfl
  | error e => cases h

/-- The graph of a document with a shader is built, from a new builder. -/
theorem exists_run_of_generateText {text : String} {g : Graph} {out : Output}
    (hg : Graph.ofText? text = .ok g) (h : generateText text = .ok out) :
    ∃ b', (g.program : Program Unit Output).run () (.new .perBuild) = (.done out, (), b') := by
  rw [generateText, hg] at h
  exact ⟨_, Prod.ext (eq_done_of_toExcept h) rfl⟩

namespace Program

/-- **Which names of a shader clash.**

* If it is the shader of a build, its temporaries have numbers from the start of the build on, below
  the number the builder goes on with. The names are apart exactly if no uniform that the build was
  asked for has the name of a temporary of the shader, and no parameter that of a temporary of its
  function. So they are apart if nothing has the name of a number that the build has given.
* If it is the shader of a graph, names clash exactly if a uniform has the name of one of the
  temporaries of the operations, which are numbered from the start of the build on.
* If it is the shader of a document, these are the names from `v0` on, as many as the graph of the
  document has operations. -/
theorem names_apart (out : Output) :
    (∀ {σ : Type} {wanted : List Var} {main : Fragment → Program σ Expr} {m m' : σ} {b b' : Builder},
      (Program.build wanted main .pure).run m b = (.done (.ok out), m', b') →
      (∀ n ∈ out.temps, b.policy.start b.next ≤ n ∧ n < b'.next) ∧
      (out.NamesApart ↔ (∀ v ∈ wanted, ∀ n ∈ out.temps, v.name ≠ tempName n) ∧
        ∀ d ∈ out.functions, ∀ p ∈ d.signature.params, ∀ n ∈ temps d.lines,
          p.name ≠ tempName n) ∧
      ((∀ v ∈ wanted ++ out.functions.flatMap fun d => d.signature.params,
        ∀ n, b.policy.start b.next ≤ n → n < b'.next → v.name ≠ tempName n) → out.NamesApart)) ∧
    (∀ {σ : Type} {g : Graph} {m m' : σ} {b b' : Builder},
      (g.program : Program σ Output).run m b = (.done out, m', b') →
      (out.NamesApart ↔ ∀ v ∈ g.uniforms, ∀ k < g.main.operations.length,
        v.name ≠ tempName (b.policy.start b.next + k))) ∧
    (∀ {text : String} {g : Graph}, Graph.ofText? text = .ok g → generateText text = .ok out →
      (out.NamesApart ↔ ∀ v ∈ g.uniforms, ∀ k < g.main.operations.length,
        v.name ≠ tempName k)) := by
  refine ⟨fun h => ?_, fun h => namesApart_of_graph h, fun hg h => ?_⟩
  · have hbounds := bounds_of_build h
    have hiff := Output.namesApart_iff (uniforms_of_build h)
    refine ⟨hbounds, hiff, fun hnames => hiff.2 ⟨fun v hv n hn => ?_, fun d hd p hp n hn => ?_⟩⟩
    · obtain ⟨hle, hlt⟩ := hbounds n hn
      exact hnames v (List.mem_append_left _ hv) n hle hlt
    · have hmem : n ∈ out.temps := List.mem_append_left _ (List.mem_flatMap.2 ⟨d, hd, hn⟩)
      obtain ⟨hle, hlt⟩ := hbounds n hmem
      exact hnames p (List.mem_append_right _ (List.mem_flatMap.2 ⟨d, hd, hp⟩)) n hle hlt
  · obtain ⟨b', hrun⟩ := exists_run_of_generateText hg h
    have hiff := namesApart_of_graph hrun
    simpa only [Builder.new, CounterPolicy.start, Nat.zero_add] using hiff

/-- A main body that applies a function of one parameter to a uniform. -/
def waved : Fragment → Program Unit Expr := fun f => do
  let wave ← function ⟨"wave", .float, [⟨"x", .float⟩]⟩ fun
    | [x] => op (.intrinsic .sin x)
    | _ => .abort
  let t ← .ofExcept (f.uniform "u_time")
  op (.call wave [.expr t])

/-- The shader of that body. -/
def wavedShader : Output where
  uniforms := [⟨"u_time", .float⟩]
  functions := [⟨⟨"wave", .float, [⟨"x", .float⟩]⟩,
    [.declare 0 (.intrinsic .sin ⟨"x", .float⟩), .result ⟨"v0", .float⟩]⟩]
  main := [.declare 1 (.call ⟨"wave", .float, [.float]⟩ [.expr ⟨"u_time", .float⟩]),
    .color ⟨"v1", .float⟩]

/-- The document of the sine of a uniform. -/
def sineDocument (name : String) : String :=
  "\x7b\"uniforms\":\x7b\"" ++ name ++ "\":\"float\"\x7d," ++
    "\"main\":\x7b\"op\":\"sin\",\"arg\":\x7b\"op\":\"uniform\",\"name\":\"" ++ name ++ "\"\x7d\x7d\x7d"

/-- The graph of that document. -/
def sineGraph (name : String) : Graph := ⟨[⟨name, .float⟩], .intrinsic .sin (.uniform name)⟩

/-- The shader of that graph, its temporary having the given number. -/
def sineGraphShader (name : String) (n : Nat) : Output where
  uniforms := [⟨name, .float⟩]
  functions := []
  main := [.declare n (.intrinsic .sin ⟨name, .float⟩), .color ⟨tempName n, .float⟩]

/-- Three shaders in which the names are apart: that of the body, that of the sine of `v0` on a builder
that has given out three numbers, and that of a document with the sine of `u_time`. -/
theorem names_apart_waved :
    (∃ b', (Program.build [⟨"u_time", .float⟩] waved .pure).run () (.new .perBuild) =
      (.done (.ok wavedShader), (), b')) ∧ wavedShader.NamesApart ∧
    (∃ b', ((sineGraph "v0").program : Program Unit Output).run ()
      { Builder.new .persistent with next := 3 } = (.done (sineGraphShader "v0" 3), (), b')) ∧
      (sineGraphShader "v0" 3).NamesApart ∧
    generateText (sineDocument "u_time") = .ok (sineGraphShader "u_time" 0) ∧
      (sineGraphShader "u_time" 0).NamesApart := by
  obtain ⟨b', hbuild⟩ : ∃ b', (Program.build [⟨"u_time", .float⟩] waved .pure).run ()
      (.new .perBuild) = (.done (.ok wavedShader), (), b') :=
    Outcome.exists_eq_of_answer? (by decide +kernel)
  obtain ⟨b'', hgraph⟩ : ∃ b', ((sineGraph "v0").program : Program Unit Output).run ()
      { Builder.new .persistent with next := 3 } = (.done (sineGraphShader "v0" 3), (), b') := by
    refine ⟨(((sineGraph "v0").program : Program Unit Output).run ()
      { Builder.new .persistent with next := 3 }).2.2, ?_⟩
    rw [Graph.program, Program.shader, Program.run_build, Program.run_build_of_not_building rfl]
    rfl
  have hread : Graph.ofText? (sineDocument "u_time") = .ok (sineGraph "u_time") :=
    eq_ok_of_toOption (by decide +kernel)
  have htext : generateText (sineDocument "u_time") = .ok (sineGraphShader "u_time" 0) :=
    eq_ok_of_toOption (by decide +kernel)
  obtain ⟨-, hwaved, -⟩ := (names_apart wavedShader).1 hbuild
  have hsine := (names_apart (sineGraphShader "v0" 3)).2.1 hgraph
  have hread_sine := (names_apart (sineGraphShader "u_time" 0)).2.2 hread htext
  exact ⟨⟨b', hbuild⟩, hwaved.2 ⟨by decide +kernel, by decide +kernel⟩,
    ⟨b'', hgraph⟩, hsine.2 (by decide +kernel), htext, hread_sine.2 (by decide +kernel)⟩

/-- The sine of a uniform named `v0`: the shader declares a temporary of that name. -/
theorem names_apart_not_sine :
    ∃ out, generateText (sineDocument "v0") = .ok out ∧ ¬ out.NamesApart := by
  refine ⟨sineGraphShader "v0" 0, eq_ok_of_toOption (by decide +kernel), fun h => ?_⟩
  exact h.uniforms ⟨"v0", .float⟩ (by decide) 0 (by decide) (by decide +kernel)

end Program

end Shader
