import Mathlib.Data.List.Nodup
import Shader.Proofs.Clashes
import Shader.Proofs.Listing

/-!
# The uniforms of a build

A build goes through the list of uniforms once. A repeat is dropped; an entry with another type than the
first one of its name ends the build before its body is run. What is left is declared at the front of
the shader, and the body finds nothing else by name.

* `FirstConflict`: the entry that a build is refused for, and the one it clashes with;
* `collectUniforms_eq_eraseDups`, `collectUniforms_of_firstConflict`: the walk over the list;
* `Fragment.Answers`, `Output.Opens`: what the body can refer to, and how the shader begins;
* **`uniforms_registered`**: builds and graph documents.
-/

namespace Shader

variable {σ : Type}

/-! ## Repeats and conflicts -/

/-- The type of an entry differs from that of the first entry of its name. -/
def Var.Differs (wanted : List Var) (v : Var) : Prop :=
  ∃ first, wanted.find? (·.name = v.name) = some first ∧ first.ty ≠ v.ty

instance (wanted : List Var) (v : Var) : Decidable (v.Differs wanted) :=
  decidable_of_iff ((wanted.find? (·.name = v.name)).any (·.ty ≠ v.ty) = true) (by
    simp [Var.Differs, Option.any_eq_true])

/-- The entry `v` is the first one whose type differs from that of the first entry of its name, and that
entry is `first`. -/
structure FirstConflict (wanted : List Var) (first v : Var) : Prop where
  agrees : ∃ before after, wanted = before ++ v :: after ∧ ∀ w ∈ before, ¬ w.Differs wanted
  found : wanted.find? (·.name = v.name) = some first
  clash : first.ty ≠ v.ty

section Lists

variable {before after wanted : List Var} {first v : Var}

theorem eraseDups_append_singleton (l : List Var) (v : Var) :
    (l ++ [v]).eraseDups = if v ∈ l then l.eraseDups else l.eraseDups ++ [v] := by
  rw [List.eraseDups_append]
  by_cases hv : v ∈ l
  · simp [List.removeAll, hv]
  · simp [List.removeAll, hv, List.eraseDups_cons]

theorem find?_eraseDups (p : Var → Bool) (l : List Var) : l.eraseDups.find? p = l.find? p := by
  induction l using List.reverseRecOn with
  | nil => rfl
  | append_singleton l v ih =>
    rw [eraseDups_append_singleton, List.find?_append]
    by_cases hv : v ∈ l
    · rw [if_pos hv, ih]
      cases hfind : l.find? p with
      | some w => rfl
      | none =>
        have hp : ¬ p v = true := List.find?_eq_none.1 hfind v hv
        simp [hp]
    · rw [if_neg hv, List.find?_append, ih]

theorem Var.eq_of_name_of_ty {v w : Var} (hname : v.name = w.name) (hty : v.ty = w.ty) : v = w := by
  cases v
  cases w
  simp_all

theorem ConflictFree.subset {l : List Var} (h : ConflictFree wanted) (hsub : l ⊆ wanted) :
    ConflictFree l :=
  fun v hv w hw => h v (hsub hv) w (hsub hw)

/-- An entry of a list without conflicts is the first one of its name. -/
theorem ConflictFree.find?_eq (h : ConflictFree wanted) (hv : v ∈ wanted) :
    wanted.find? (·.name = v.name) = some v := by
  cases hfind : wanted.find? (·.name = v.name) with
  | none =>
    have hne := List.find?_eq_none.1 hfind v hv
    simp at hne
  | some w =>
    have hname : w.name = v.name := by simpa using List.find?_some hfind
    have hty := h w (List.mem_of_find?_eq_some hfind) v hv hname
    rw [Var.eq_of_name_of_ty hname hty]

/-- An entry behind a list without conflicts is in one only with the first entry of its name. -/
theorem ConflictFree.append_singleton {l : List Var} (hl : ConflictFree l)
    (hv : ∀ first, l.find? (·.name = v.name) = some first → first.ty = v.ty) :
    ConflictFree (l ++ [v]) := by
  have hlast (w : Var) (hw : w ∈ l) (hname : w.name = v.name) : w.ty = v.ty :=
    hv w (hname ▸ hl.find?_eq hw)
  intro x hx y hy hname
  rw [List.mem_append, List.mem_singleton] at hx hy
  obtain hx | rfl := hx
  · obtain hy | rfl := hy
    · exact hl x hx y hy hname
    · exact hlast x hx hname
  · obtain hy | rfl := hy
    · exact (hlast y hy hname.symm).symm
    · rfl

/-- What comes behind an entry does not change what is found for its name. -/
theorem find?_append_of_mem {l : List Var} (hv : v ∈ l) (rest : List Var) :
    (l ++ rest).find? (·.name = v.name) = l.find? (·.name = v.name) := by
  rw [List.find?_append]
  cases hfind : l.find? (·.name = v.name) with
  | some first => rfl
  | none =>
    have hne := List.find?_eq_none.1 hfind v hv
    simp at hne

theorem nodup_names_eraseDups (h : ConflictFree wanted) :
    (wanted.eraseDups.map (·.name)).Nodup := by
  induction wanted using List.reverseRecOn with
  | nil => exact List.nodup_nil
  | append_singleton l v ih =>
    have hl : (l.eraseDups.map (·.name)).Nodup := ih (h.subset (List.subset_append_left _ _))
    rw [eraseDups_append_singleton]
    by_cases hv : v ∈ l
    · rwa [if_pos hv]
    · rw [if_neg hv, List.map_append, List.nodup_append]
      refine ⟨hl, List.nodup_singleton _, ?_⟩
      rintro _ hw _ hname rfl
      obtain ⟨w, hmem, hwname⟩ := List.mem_map.1 hw
      have hw : w ∈ l := List.mem_eraseDups.1 hmem
      rw [List.mem_singleton.1 hname] at hwname
      -- the name of `v` stands in the list, with the type of `v`, so `v` does
      have hfind := h.find?_eq (v := v) (by simp)
      have hfind' := h.find?_eq (v := w) (by simp [hw])
      rw [hwname, hfind] at hfind'
      exact hv (Option.some.inj hfind' ▸ hw)

/-- There is an entry to refuse a list for just if there are two entries in conflict. -/
theorem exists_firstConflict_iff :
    (∃ first v, FirstConflict wanted first v) ↔ ¬ ConflictFree wanted := by
  constructor
  · rintro ⟨first, v, ⟨before, after, hsplit, -⟩, hfound, hclash⟩ hfree
    have hv : v ∈ wanted := by simp [hsplit]
    rw [hfree.find?_eq hv] at hfound
    exact hclash (congrArg Var.ty (Option.some.inj hfound).symm)
  · intro hwanted
    induction wanted using List.reverseRecOn with
    | nil => exact absurd (fun v hv => nomatch hv) hwanted
    | append_singleton l v ih =>
      by_cases hl : ConflictFree l
      · -- the entries of `l` agree, so it is the last one that does not
        have hlast : ∃ first, l.find? (·.name = v.name) = some first ∧ first.ty ≠ v.ty := by
          by_contra hnone
          exact hwanted (hl.append_singleton fun first hfind =>
            not_not.1 fun hne => hnone ⟨first, hfind, hne⟩)
        obtain ⟨first, hfind, hclash⟩ := hlast
        refine ⟨first, v, ⟨l, [], rfl, ?_⟩, by rw [List.find?_append, hfind, Option.some_or], hclash⟩
        rintro w hw ⟨first', hfind', hne⟩
        rw [find?_append_of_mem hw, hl.find?_eq hw] at hfind'
        exact hne (congrArg Var.ty (Option.some.inj hfind').symm)
      · obtain ⟨first, w, ⟨before, after, rfl, hagrees⟩, hfound, hclash⟩ := ih hl
        refine ⟨first, w, ⟨before, after ++ [v], by simp, ?_⟩, ?_, hclash⟩
        · rintro u hu ⟨first', hfind, hne⟩
          rw [find?_append_of_mem (by simp [hu])] at hfind
          exact hagrees u hu ⟨first', hfind, hne⟩
        · rwa [find?_append_of_mem (by simp)]

end Lists

/-! ## The walk over the list -/

namespace Builder

variable {wanted : List Var} {first v : Var}

theorem collectUniforms_append (before after : List Var) :
    collectUniforms (before ++ after) = (collectUniforms before).bind (after.foldlM addUniform) :=
  List.foldlM_append

/-- **Without a conflict repeats are dropped**, and the order is kept. -/
theorem collectUniforms_eq_eraseDups (h : ConflictFree wanted) :
    collectUniforms wanted = .ok wanted.eraseDups := by
  induction wanted using List.reverseRecOn with
  | nil => rfl
  | append_singleton l v ih =>
    rw [collectUniforms_append, ih (h.subset (List.subset_append_left _ _)),
      eraseDups_append_singleton]
    have hadd : addUniform l.eraseDups v =
        .ok (if v ∈ l then l.eraseDups else l.eraseDups ++ [v]) := by
      unfold addUniform
      rw [find?_eraseDups]
      have hfind := h.find?_eq (v := v) (by simp)
      rw [List.find?_append] at hfind
      cases hl : l.find? (·.name = v.name) with
      | none =>
        have hv : v ∉ l := fun hv => absurd (List.find?_eq_none.1 hl v hv) (by simp)
        rw [if_neg hv]
      | some earlier =>
        rw [hl, Option.some_or] at hfind
        obtain rfl := Option.some.inj hfind
        rw [if_pos (List.mem_of_find?_eq_some hl)]
        exact if_pos rfl
    simp [Except.bind, hadd]

/-- **A conflict ends the walk**, at the first entry that is in one. -/
theorem collectUniforms_of_firstConflict (h : FirstConflict wanted first v) :
    collectUniforms wanted = .error ⟨.conflictingUniform v.name first.ty v.ty, none⟩ := by
  obtain ⟨⟨before, after, rfl, hagrees⟩, hfound, hclash⟩ := h
  have hbefore : ConflictFree before := by
    intro x hx y hy hname
    have hty (w : Var) (hw : w ∈ before) (u : Var)
        (hu : (before ++ v :: after).find? (·.name = w.name) = some u) : u.ty = w.ty :=
      not_not.1 fun hne => hagrees w hw ⟨u, hu, hne⟩
    obtain ⟨u, hu⟩ : ∃ u, before.find? (·.name = x.name) = some u :=
      Option.isSome_iff_exists.1 (List.find?_isSome.2 ⟨x, hx, by simp⟩)
    rw [← find?_append_of_mem hx (v :: after)] at hu
    exact (hty x hx u hu).symm.trans (hty y hy u (hname ▸ hu))
  have hfirst : before.find? (·.name = v.name) = some first := by
    rw [List.find?_append] at hfound
    cases hfind : before.find? (·.name = v.name) with
    | some u =>
      rw [hfind, Option.some_or] at hfound
      exact hfound
    | none =>
      rw [hfind, Option.none_or, List.find?_cons_of_pos (by simp)] at hfound
      exact absurd (congrArg Var.ty (Option.some.inj hfound).symm) hclash
  have hadd : addUniform before.eraseDups v =
      .error ⟨.conflictingUniform v.name first.ty v.ty, none⟩ := by
    simp [addUniform, find?_eraseDups, hfirst, hclash]
  rw [collectUniforms_append, collectUniforms_eq_eraseDups hbefore, Except.bind, List.foldlM_cons,
    hadd]
  rfl

end Builder

/-! ## Fragments and shaders -/

/-- A fragment finds the entries of a list by their names, and nothing else; a lookup has the same answer
wherever it is made, and changes nothing. -/
structure Fragment.Answers (f : Fragment) (wanted : List Var) : Prop where
  known : ∀ v ∈ wanted, f.uniform v.name = .ok ⟨v.name, v.ty⟩
  unknown : ∀ name, (∀ v ∈ wanted, v.name ≠ name) →
    f.uniform name = .error ⟨.unknownUniform name, none⟩
  anywhere : ∀ {σ : Type} (name : String) (m : σ) (b : Builder), ∃ o : Outcome Expr,
    (Program.ofExcept (f.uniform name)).run m b = (o, m, b) ∧ o.toExcept = f.uniform name

/-- A shader begins with a line for every entry of a list, repeats being dropped. -/
structure Output.Opens (out : Output) (wanted : List Var) : Prop where
  uniforms : out.uniforms = wanted.eraseDups
  nodup : (out.uniforms.map (·.name)).Nodup
  source : ∃ rest, out.source = String.intercalate "\n"
    (out.uniforms.map fun v => "uniform " ++ v.ty.keyword ++ " " ++ v.name ++ ";") ++ "\n\n" ++ rest

theorem Fragment.answers_of_conflictFree {wanted : List Var} (h : ConflictFree wanted) :
    (Fragment.mk wanted.eraseDups).Answers wanted where
  known v hv := by
    rw [uniform_eq_ok_iff]
    exact ⟨v, by rw [find?_eraseDups, h.find?_eq hv], rfl⟩
  unknown name hname := by
    have hnone : wanted.find? (·.name = name) = none :=
      List.find?_eq_none.2 fun v hv => by simpa using hname v hv
    simp only [uniform, find?_eraseDups, hnone]
  anywhere name m b := by
    cases Fragment.uniform ⟨wanted.eraseDups⟩ name with
    | ok e => exact ⟨.done e, rfl, rfl⟩
    | error f => exact ⟨.failed f, rfl, rfl⟩

theorem Output.source_eq_declarations (out : Output) : ∃ rest, out.source = String.intercalate "\n"
    (out.uniforms.map fun v => "uniform " ++ v.ty.keyword ++ " " ++ v.name ++ ";") ++ "\n\n" ++ rest := by
  have hline : (fun v : Var => "uniform " ++ v.ty.keyword ++ " " ++ v.name ++ ";") =
      Var.declaration := by
    funext v
    simp only [Var.declaration, Var.declared, String.append_assoc]
  rw [hline, source, String.intercalate_cons_cons]
  exact ⟨_, rfl⟩

namespace Program

/-- What becomes of the uniforms of a build. -/
structure Registers (wanted : List Var) (main : Fragment → Program σ Expr) (m : σ) (b : Builder) :
    Prop where
  /-- A conflict ends the build before the body is run. -/
  refused : ∀ first v, FirstConflict wanted first v →
    let failure : Failure := ⟨.conflictingUniform v.name first.ty v.ty, none⟩
    let b' := (b.begun []).settle (.error failure)
    (Program.build wanted main .pure).run m b = (.done (.error failure), m, b') ∧
      b'.building = false ∧ b'.depth = 0
  /-- There is a conflict if two entries have one name and two types. -/
  conflict : ¬ ConflictFree wanted → ∃ first v, FirstConflict wanted first v
  /-- Without a conflict the body is run. -/
  accepted : ConflictFree wanted → ∃ f : Fragment, f.Answers wanted ∧
    (Program.build wanted main .pure).run m b =
      Outcome.settle ((main f).run m (b.begun f.uniforms))
  declared : ∀ out m' b', (Program.build wanted main .pure).run m b = (.done (.ok out), m', b') →
    out.Opens wanted

theorem registers {wanted : List Var} {main : Fragment → Program σ Expr} {b : Builder}
    (hb : b.building = false) (m : σ) : Registers wanted main m b where
  refused first v h := by
    rw [run_build_of_not_building hb, Builder.collectUniforms_of_firstConflict h]
    exact ⟨rfl, rfl, rfl⟩
  conflict := exists_firstConflict_iff.2
  accepted h := by
    rw [run_build_of_not_building hb, Builder.collectUniforms_eq_eraseDups h]
    exact ⟨⟨wanted.eraseDups⟩, Fragment.answers_of_conflictFree h, rfl⟩
  declared out m' b' h := by
    have hfree : ConflictFree wanted := by
      by_contra hconflict
      obtain ⟨first, v, hv⟩ := exists_firstConflict_iff.2 hconflict
      rw [run_build_of_not_building hb, Builder.collectUniforms_of_firstConflict hv] at h
      cases h
    obtain ⟨-, uniforms, value, b₁, hu, hmain, -, -, rfl, -⟩ := run_build_eq_ok h
    have hext : (b.begun uniforms).Extends b₁ := by
      have := (main ⟨uniforms⟩).run_extends m (b.begun uniforms) rfl
      rwa [hmain] at this
    have huniforms : b₁.uniforms = wanted.eraseDups := by
      rw [Builder.collectUniforms_eq_eraseDups hfree] at hu
      exact hext.uniforms.trans (Except.ok.inj hu).symm
    refine ⟨huniforms, ?_, Output.source_eq_declarations _⟩
    rw [huniforms]
    exact nodup_names_eraseDups hfree

/-- **The uniforms of a build.** On an idle builder, a list in which a name has two types is refused for
the first entry that differs from the first one of its name. The body is not run, and the builder is
idle. Otherwise the body can refer to what is in the list and to nothing else, and a shader begins with
the list, repeats being dropped. So it is for a graph document, with the list that its text gives. -/
theorem uniforms_registered :
    (∀ {σ : Type} (wanted : List Var) (main : Fragment → Program σ Expr) (m : σ) (b : Builder),
      b.building = false → Registers wanted main m b) ∧
    ∀ (text : String) (g : Graph), Graph.ofText text = .ok g →
      Graph.listed? text = some g.uniforms ∧
      ∀ {σ : Type} (m : σ) (b : Builder), b.building = false →
        Registers g.uniforms (fun f => g.main.program f) m b ∧
        (∀ first v, FirstConflict g.uniforms first v →
          let failure : Failure := ⟨.conflictingUniform v.name first.ty v.ty, none⟩
          g.program.run m b = (.failed failure, m, (b.begun []).settle (.error failure))) ∧
        ∀ out m' b', g.program.run m b = (.done out, m', b') → out.Opens g.uniforms := by
  refine ⟨fun wanted main m b hb => registers hb m, fun text g hg =>
    ⟨Graph.listed?_of_ofText hg, fun {σ} m b hb => ?_⟩⟩
  have hregisters : Registers g.uniforms (fun f => (g.main.program f : Program σ Expr)) m b :=
    registers hb m
  refine ⟨hregisters, fun first v hv => ?_, fun out m' b' h => ?_⟩
  · intro failure
    rw [Graph.program, shader, run_build, (hregisters.refused first v hv).1]
    rfl
  · exact hregisters.declared out m' b' (run_shader_eq_done h)

/-- A document that declares `a` twice, behind a member that is passed over. -/
def repeatedDocument : String :=
  "\x7b \"note\": [1e999],\n  \"uniforms\": " ++
    "\x7b\"a\": \"float\", \"b\": \x7b\"vec2\": null\x7d, \"a\": \"float\"\x7d,\n" ++
    "  \"main\": \x7b\"name\": \"a\", \"op\": \"uniform\"\x7d \x7d"

/-- The graph of that document. -/
def repeatedGraph : Graph := ⟨[⟨"a", .float⟩, ⟨"b", .vec2⟩, ⟨"a", .float⟩], .uniform "a"⟩

/-- The shader of that graph. -/
def repeatedShader : Output where
  uniforms := [⟨"a", .float⟩, ⟨"b", .vec2⟩]
  functions := []
  main := [.color ⟨"a", .float⟩]

/-- A list is refused for the second `b`, though the third `a` is in conflict as well. The document is
read in order and declares two uniforms. -/
theorem uniforms_registered_repeated :
    (let wanted : List Var := [⟨"a", .float⟩, ⟨"b", .vec2⟩, ⟨"a", .float⟩, ⟨"b", .vec3⟩, ⟨"a", .vec4⟩]
      ∃ b', (Program.build wanted (fun _ => .abort) .pure : Program Unit _).run () (.new .perBuild) =
        (.done (.error ⟨.conflictingUniform "b" .vec2 .vec3, none⟩), (), b') ∧ b'.building = false) ∧
    Graph.ofText repeatedDocument = .ok repeatedGraph ∧
    Graph.listed? repeatedDocument = some [⟨"a", .float⟩, ⟨"b", .vec2⟩, ⟨"a", .float⟩] ∧
    ∃ b', (repeatedGraph.program : Program Unit Output).run () (.new .perBuild) =
        (.done repeatedShader, (), b') ∧
      ∃ rest, repeatedShader.source = "uniform float a;\nuniform vec2 b;\n\n" ++ rest := by
  obtain ⟨hbuild, hgraph⟩ := uniforms_registered
  have hread : Graph.ofText repeatedDocument = .ok repeatedGraph := eq_ok_of_toOption (by decide +kernel)
  obtain ⟨hlisted, hrun⟩ := hgraph repeatedDocument repeatedGraph hread
  refine ⟨?_, hread, hlisted, ?_⟩
  · intro wanted
    have hconflict : FirstConflict wanted ⟨"b", .vec2⟩ ⟨"b", .vec3⟩ :=
      ⟨⟨wanted.take 3, wanted.drop 4, rfl, by decide⟩, by decide, by decide⟩
    exact ⟨_, ((hbuild wanted (fun _ => .abort) () (.new .perBuild) rfl).refused _ _ hconflict).1, rfl⟩
  · have htext : Graph.ofText? repeatedDocument = .ok repeatedGraph := by
      rw [Graph.ofText?, hread]
      rfl
    obtain ⟨b', hshader⟩ := exists_run_of_generateText htext
      (eq_ok_of_toOption (by decide +kernel) : generateText repeatedDocument = .ok repeatedShader)
    obtain ⟨rest, hsource⟩ := ((hrun () (.new .perBuild) rfl).2.2 repeatedShader () b' hshader).source
    have hlines : String.intercalate "\n" (repeatedShader.uniforms.map fun v =>
        "uniform " ++ v.ty.keyword ++ " " ++ v.name ++ ";") = "uniform float a;\nuniform vec2 b;" := by
      decide
    rw [hlines] at hsource
    exact ⟨b', hshader, rest, hsource.trans (congrArg (· ++ rest) (by decide))⟩

end Program

end Shader
