import Shader.Proofs.Deeds
import Shader.Proofs.Numbering

/-!
# Functions come before their calls

A shader has the functions whose definitions have answered, in the order of the answers, also those
that were defined in a conditional or in another function that failed afterwards. So where a function is
called, it is there already.

* `Deed.Precedes`: a function that is there before an operation has no line of that operation;
* `Builder.Catalogued`, `Step.catalogued`: the functions and lines of a builder agree with its deeds;
* **`functions_before_use`**: the functions of a finished shader, and where they are called.
-/

namespace Shader

variable {σ α β : Type}

namespace Deed

/-- If a deed has defined a function and a later one has performed an operation, the function does not
declare the temporary of the operation. -/
def Precedes (e e' : Deed) : Prop :=
  ∀ d n op, e.definition? = some d → e' = performed n op → n ∉ temps d.lines

theorem precedes_defined (e : Deed) (d : Definition) (f : Callee) : e.Precedes (defined d f) :=
  fun _ _ _ _ h => by cases h

/-- What does not last defines nothing. -/
theorem filterMap_definition?_filter_lasts (ds : List Deed) :
    (ds.filter lasts).filterMap definition? = ds.filterMap definition? := by
  rw [List.filterMap_filter]
  refine congrArg (fun f => ds.filterMap f) (funext fun e => ?_)
  cases e <;> rfl

/-- What does not last comes before and after everything. -/
theorem pairwise_precedes_of_filter_lasts {ds : List Deed}
    (h : (ds.filter lasts).Pairwise Precedes) : ds.Pairwise Precedes := by
  refine (List.pairwise_filter.1 h).imp fun {e e'} he d n op hd hp => ?_
  refine he ?_ ?_ d n op hd hp
  · cases e with
    | leftBranch => cases hd
    | _ => rfl
  · rw [hp]
    rfl

/-- The functions that were there before an operation do not declare its temporary. -/
theorem not_mem_temps_of_pairwise {before after : List Deed} {n : Nat} {op : Operation}
    (h : (before ++ performed n op :: after).Pairwise Precedes) {d : Definition}
    (hd : d ∈ before.filterMap definition?) : n ∉ temps d.lines := by
  obtain ⟨e, he, hed⟩ := List.mem_filterMap.1 hd
  exact (List.pairwise_append.1 h).2.2 e he (performed n op) List.mem_cons_self d n op hed rfl

end Deed

theorem mem_temps_of_declare {n : Nat} {op : Operation} {ls : List Line}
    (h : Line.declare n op ∈ ls) : n ∈ temps ls :=
  List.mem_filterMap.2 ⟨_, h, rfl⟩

namespace Builder

/-- The deeds that a builder reports account for what it holds: they have defined its functions, in
order, they have performed what its lines declare, and what they have defined came before what they have
performed later. -/
structure Catalogued (b : Builder) : Prop where
  functions : b.functions = b.deeds.filterMap Deed.definition?
  performed : ∀ ls ∈ b.bodies, ∀ n op, Line.declare n op ∈ ls → Deed.performed n op ∈ b.deeds
  precedes : b.deeds.Pairwise Deed.Precedes

/-- The functions of a builder declare temporaries that were given before. -/
theorem InOrder.lt_of_mem_functions {lo : Nat} {b : Builder} (h : b.InOrder lo) {d : Definition}
    (hd : d ∈ b.functions) {n : Nat} (hn : n ∈ temps d.lines) : n < b.next := by
  refine (h.numbered.bounds n (List.mem_flatMap.2 ⟨d.lines, ?_, hn⟩)).2
  exact List.mem_append_left _ (List.mem_map_of_mem hd)

/-- The lines of a builder are accounted for as long as no declaration comes without its deed. -/
theorem Catalogued.of_lines {b b' : Builder} (h : b.Catalogued) (hd : b'.deeds = b.deeds)
    (hf : b'.functions = b.functions)
    (hlines : ∀ ls ∈ b'.scopes, ∀ n op, Line.declare n op ∈ ls →
      ∃ ls' ∈ b.scopes, Line.declare n op ∈ ls') : b'.Catalogued where
  functions := by rw [hd, hf, h.functions]
  performed ls hls n op hl := by
    rw [hd]
    obtain hls | hls := List.mem_append.1 hls
    · exact h.performed ls (List.mem_append_left _ (hf ▸ hls)) n op hl
    · obtain ⟨ls', hls', hl'⟩ := hlines ls hls n op hl
      exact h.performed ls' (List.mem_append_right _ hls') n op hl'
  precedes := hd ▸ h.precedes

theorem catalogued_begun (b : Builder) (uniforms : List Var) : (b.begun uniforms).Catalogued where
  functions := rfl
  performed ls hls n op hl := by
    obtain rfl : ls = [] := by simpa [bodies, begun] using hls
    cases hl
  precedes := .nil

/-- A line written stands at the end of the innermost scope. -/
theorem mem_of_mem_written {b : Builder} {line l : Line} {ls : List Line}
    (hls : ls ∈ (b.written line).scopes) (hl : l ∈ ls) : l = line ∨ ∃ ls' ∈ b.scopes, l ∈ ls' := by
  have hscopes : (b.written line).scopes = b.scopes.modifyHead (· ++ [line]) := rfl
  rw [hscopes] at hls
  cases hs : b.scopes with
  | nil => simp [hs] at hls
  | cons live lower =>
    rw [hs, List.modifyHead_cons] at hls
    obtain rfl | hls := List.mem_cons.1 hls
    · obtain hl | hl := List.mem_append.1 hl
      · exact .inr ⟨live, List.mem_cons_self, hl⟩
      · exact .inl (List.mem_singleton.1 hl)
    · exact .inr ⟨ls, List.mem_cons_of_mem _ hls, hl⟩

/-- The next temporary comes after all functions there are. -/
theorem catalogued_declared {lo : Nat} {b : Builder} (h : b.Catalogued) (hn : b.InOrder lo)
    (op : Operation) : (b.declared op).Catalogued := by
  have hdeeds := b.deeds_declared op
  refine ⟨?_, fun ls hls n op' hl => ?_, ?_⟩
  · rw [hdeeds, List.filterMap_append, ← h.functions]
    exact (List.append_nil _).symm
  · rw [hdeeds, List.mem_append]
    obtain hls | hls := List.mem_append.1 hls
    · exact .inl (h.performed ls (List.mem_append_left _ hls) n op' hl)
    · obtain hl | ⟨ls', hls', hl'⟩ := mem_of_mem_written hls hl
      · cases hl
        exact .inr List.mem_cons_self
      · exact .inl (h.performed ls' (List.mem_append_right _ hls') n op' hl')
  · rw [hdeeds, List.pairwise_append]
    refine ⟨h.precedes, List.pairwise_singleton _ _, fun e he e' he' d n op' hd hp hmem => ?_⟩
    obtain rfl := List.mem_singleton.1 he'
    cases hp
    have hfun : d ∈ b.functions := by
      rw [h.functions]
      exact List.mem_filterMap.2 ⟨e, he, hd⟩
    exact Nat.lt_irrefl _ (hn.lt_of_mem_functions hfun hmem)

/-- A function comes after all there are. -/
theorem catalogued_addFunction {b : Builder} (h : b.Catalogued) {d : Definition}
    {outer : List (List Line)} (hs : b.scopes = d.lines :: outer) :
    ({ b with scopes := outer }.addFunction d).Catalogued := by
  have hdeeds : ({ b with scopes := outer }.addFunction d).deeds =
      b.deeds ++ [.defined d d.signature.callee] := deeds_addFunction { b with scopes := outer } d
  refine ⟨?_, fun ls hls n op hl => ?_, ?_⟩
  · rw [hdeeds, List.filterMap_append, ← h.functions]
    rfl
  · rw [hdeeds]
    refine List.mem_append_left _ (h.performed ls ?_ n op hl)
    simpa [bodies, addFunction, report, hs] using hls
  · rw [hdeeds, List.pairwise_append]
    refine ⟨h.precedes, List.pairwise_singleton _ _, fun e _ e' he' => ?_⟩
    rw [List.mem_singleton.1 he']
    exact e.precedes_defined _ _

/-- **The invariant**: every step keeps a builder catalogued. -/
theorem Step.catalogued {lo : Nat} {b b' : Builder} (h : b.Step b') (hn : b.InOrder lo)
    (hb : b.Catalogued) : b'.Catalogued := by
  cases h with
  | @write line _ hl =>
    refine hb.of_lines (b.deeds_written line hl) rfl fun ls hls n op hd => ?_
    obtain rfl | hold := mem_of_mem_written hls hd
    · cases hl
    · exact hold
  | @declare op _ _ => exact catalogued_declared hb hn op
  | enter hw hd =>
    refine hb.of_lines rfl rfl fun ls hls n op hl => ?_
    obtain rfl | hls := List.mem_cons.1 hls
    · cases hl
    · exact ⟨ls, hls, hl⟩
  | keep _ _ hs _ => exact catalogued_addFunction hb hs
  | @drop above lower live more _ hs =>
    refine hb.of_lines rfl rfl fun ls hls n op hl => ?_
    rw [hs]
    obtain rfl | hls := List.mem_cons.1 hls
    · exact ⟨ls ++ more, by simp, List.mem_append_left _ hl⟩
    · exact ⟨ls, by simp [hls], hl⟩
  | start => exact b.catalogued_begun _
  | @settle r =>
    refine hb.of_lines (b.deeds_settle r) ?_ fun ls hls => ?_
    · cases r <;> rfl
    · cases r <;> cases hls

end Builder

namespace Program

/-- **Functions are defined before they are used and are never lost.** If a build answers with a
shader, the functions of the shader are those that its definitions have answered with, in the order of
the answers. Every temporary that a line of the shader declares has been declared by an operation that
was performed. If that was the call of a function that had been defined by then, the shader has the
function; and if the line stands in another function, the called one comes before that. -/
theorem functions_before_use {wanted : List Var} {main : Fragment → Program σ Expr} {m m' : σ}
    {b b' : Builder} {out : Output}
    (h : (Program.build wanted main .pure).run m b = (.done (.ok out), m', b')) :
    let deeds := (Program.build wanted main .pure).deeds m b
    out.functions = deeds.filterMap Deed.definition? ∧
    (∀ ls ∈ out.main :: out.functions.map (·.lines), ∀ n op, Line.declare n op ∈ ls →
      ∃ before after, deeds = before ++ .performed n op :: after) ∧
    ∀ before after n f args d, deeds = before ++ .performed n (.call f args) :: after →
      .defined d f ∈ before → d ∈ out.functions ∧
        ∀ (j : Nat) d', out.functions[j]? = some d' → .declare n (.call f args) ∈ d'.lines →
          ∃ i < j, out.functions[i]? = some d := by
  obtain ⟨hb, uniforms, value, b₁, hu, hmain, -, hd, rfl, -⟩ := run_build_eq_ok h
  intro deeds
  have hreach : (b.begun uniforms).Reaches b₁ := by
    have := (main ⟨uniforms⟩).run_reaches m (b.begun uniforms)
    rwa [hmain] at this
  obtain ⟨-, hfun, hperformed, hprecedes⟩ :=
    hreach.keeps (P := fun b' => b'.InOrder (b.policy.start b.next) ∧ b'.Catalogued)
      (fun hs hk => ⟨hs.inOrder hk.1, hs.catalogued hk.1 hk.2⟩)
      ⟨b.inOrder_begun uniforms, b.catalogued_begun uniforms⟩
  have hdeeds : b₁.deeds = deeds.filter Deed.lasts := by
    have := (main ⟨uniforms⟩).deeds_run m (b.begun uniforms) rfl
    rwa [hmain, Builder.deeds_begun, List.nil_append, ← deeds_build hb hu] at this
  rw [hdeeds, Deed.filterMap_definition?_filter_lasts] at hfun
  replace hprecedes : deeds.Pairwise Deed.Precedes :=
    Deed.pairwise_precedes_of_filter_lasts (hdeeds ▸ hprecedes)
  refine ⟨hfun, fun ls hls n op hl => ?_, fun before after n f args d hsplit hbefore => ?_⟩
  · have hmem : Deed.performed n op ∈ b₁.deeds := by
      obtain rfl | hls := List.mem_cons.1 hls
      · obtain ⟨live, hs⟩ := List.length_eq_one_iff.1 hd
        have hl' : Line.declare n op ∈ b₁.lines := by simpa using hl
        refine hperformed b₁.lines (List.mem_append_right _ ?_) n op hl'
        simp [Builder.lines, hs]
      · exact hperformed ls (List.mem_append_left _ hls) n op hl
    rw [hdeeds] at hmem
    exact List.append_of_mem (List.mem_filter.1 hmem).1
  · have hd : d ∈ before.filterMap Deed.definition? := List.mem_filterMap.2 ⟨_, hbefore, rfl⟩
    rw [hsplit, List.filterMap_append, List.filterMap_cons] at hfun
    dsimp only [Deed.definition?] at hfun
    refine ⟨hfun ▸ List.mem_append_left _ hd, fun j d' hj hl => ?_⟩
    have hold : d' ∉ before.filterMap Deed.definition? := fun hd' =>
      Deed.not_mem_temps_of_pairwise (hsplit ▸ hprecedes) hd' (mem_temps_of_declare hl)
    obtain ⟨i, hi, hid⟩ := List.getElem_of_mem hd
    have hle : (before.filterMap Deed.definition?).length ≤ j := by
      refine Nat.le_of_not_lt fun hlt => hold ?_
      rw [hfun, List.getElem?_append_left hlt] at hj
      exact List.mem_of_getElem? hj
    refine ⟨i, Nat.lt_of_lt_of_le hi hle, ?_⟩
    rw [hfun, List.getElem?_append_left hi, List.getElem?_eq_getElem hi, hid]

/-- A main body that calls a function whose body has defined and called another one. In between a
conditional fails that has defined a third. -/
def nested : Fragment → Program Unit Expr := fun _ => do
  let outer ← function ⟨"outer", .float, []⟩ fun _ => do
    let inner ← function ⟨"inner", .float, []⟩ fun _ => return ⟨"0.5", .float⟩
    op (.call inner [])
  let third : Program Unit Callee := function ⟨"third", .float, []⟩ fun _ => return ⟨"1.0", .float⟩
  let _ ← (ifBlock "t > 0.0" (do let _ ← third; .fail (.ofMisuse .abandoned))).attempt
  op (.call outer [])

/-- The innermost function of that shader. -/
def innerDefinition : Definition := ⟨⟨"inner", .float, []⟩, [.result ⟨"0.5", .float⟩]⟩

/-- The shader of that body. -/
def nestedShader : Output where
  uniforms := []
  functions := [innerDefinition,
    ⟨⟨"outer", .float, []⟩, [.declare 0 (.call innerDefinition.signature.callee []),
      .result ⟨tempName 0, .float⟩]⟩,
    ⟨⟨"third", .float, []⟩, [.result ⟨"1.0", .float⟩]⟩]
  main := [.declare 1 (.call ⟨"outer", .float, []⟩ []), .color ⟨tempName 1, .float⟩]

/-- The shader has all three functions, and the inner one comes first. -/
theorem functions_before_use_nested :
    let deeds := (Program.build [] nested .pure).deeds () (.new .perBuild)
    (∃ b', (Program.build [] nested .pure).run () (.new .perBuild) =
      (.done (.ok nestedShader), (), b')) ∧
    nestedShader.functions = deeds.filterMap Deed.definition? ∧
    (∃ before after, deeds = before ++ .performed 1 (.call ⟨"outer", .float, []⟩ []) :: after) ∧
    ∃ i < 1, nestedShader.functions[i]? = some innerDefinition := by
  intro deeds
  obtain ⟨b', h⟩ : ∃ b', (Program.build [] nested .pure).run () (.new .perBuild) =
      (.done (.ok nestedShader), (), b') := Outcome.exists_eq_of_answer? (by decide +kernel)
  obtain ⟨hfun, hlines, hcalls⟩ := functions_before_use h
  refine ⟨⟨b', h⟩, hfun, hlines _ List.mem_cons_self 1 _ List.mem_cons_self, ?_⟩
  have hsplit : deeds = [.defined innerDefinition innerDefinition.signature.callee] ++
      .performed 0 (.call innerDefinition.signature.callee []) :: deeds.drop 2 := by decide +kernel
  exact (hcalls _ _ _ _ _ _ hsplit List.mem_cons_self).2 1 _ rfl List.mem_cons_self

end Program

end Shader
