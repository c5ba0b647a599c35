import Shader.Proofs.Evaluation
import Shader.Proofs.Frame

/-!
# Graphs keep their meaning

The shader of a graph declares one temporary for every operation. Whatever its operators, functions,
numbers and uniforms are taken to mean, executing the text of its lines gives the value of the graph.

* `Compiled`: what nodes have become, as lines and as atoms that hold their values;
* `Compiled.append`: nodes evaluated one after the other; **`Compiled.perform`**: an operation on them;
* **`compiled_node`**: every node, by recursion on the tree;
* **`graph_preserves`**: the main block of a graph.
-/

universe u

namespace Shader

/-- The nodes `ns` have been evaluated, which took a builder from `b` to `b'`. Their declarations
`ss` are the new lines, and after these the atoms `as` have the values of the nodes, whatever was
bound before beside the uniforms. -/
structure Compiled (uniforms : List Var) (first : Nat) (ns : List Node) (b : Builder)
    (as : List Atom) (ss : List Statement) (b' : Builder) : Prop where
  lines : ∃ ls, b'.lines = b.lines ++ ls ∧ ls.map Line.text = ss.map Statement.text
  block : Block uniforms first b.next ss b'.next
  known : ∀ a ∈ as, a.IsKnown uniforms first b'.next
  values : ∀ {V : Type u} (I : Interpretation V) (env : List (String × V)), I.Binds uniforms env →
    ∃ env', I.execute ss env = some env' ∧ as.map (I.atom env') = ns.map fun n => some (I.node n)

namespace Compiled

variable {uniforms : List Var} {first : Nat} {ns ms : List Node} {as bs : List Atom}
  {ss ts : List Statement} {b b₁ b₂ : Builder}

theorem nil : Compiled.{u} uniforms first [] b [] [] b where
  lines := ⟨[], by simp⟩
  block := .nil
  known := by simp
  values I env _ := ⟨env, rfl, rfl⟩

/-- A node that is an atom itself adds no line. -/
theorem leaf {n : Node} {a : Atom} (ha : a.IsKnown uniforms first b.next)
    (hv : ∀ {V : Type u} (I : Interpretation V) (env : List (String × V)), I.Binds uniforms env →
      I.atom env a = some (I.node n)) : Compiled.{u} uniforms first [n] b [a] [] b where
  lines := ⟨[], by simp⟩
  block := .nil
  known := by simpa using ha
  values I env he := ⟨env, rfl, by simp [hv I env he]⟩

/-- **Later nodes leave the values of earlier ones alone.** -/
theorem append (hu : ∀ v ∈ uniforms, v.IsNameable) (h₁ : Compiled.{u} uniforms first ns b as ss b₁)
    (h₂ : Compiled.{u} uniforms first ms b₁ bs ts b₂) :
    Compiled.{u} uniforms first (ns ++ ms) b (as ++ bs) (ss ++ ts) b₂ where
  lines := by
    obtain ⟨ls, hl, ht⟩ := h₁.lines
    obtain ⟨ls', hl', ht'⟩ := h₂.lines
    exact ⟨ls ++ ls', by rw [hl', hl, List.append_assoc], by rw [List.map_append, ht, ht', List.map_append]⟩
  block := h₁.block.append h₂.block
  known a ha := by
    obtain ha | ha := List.mem_append.1 ha
    · exact (h₁.known a ha).mono h₂.block.le
    · exact h₂.known a ha
  values I env he := by
    obtain ⟨env₁, hrun, hv⟩ := h₁.values I env he
    obtain ⟨env₂, hrun', hv'⟩ := h₂.values I env₁ (h₁.block.binds hrun hu he)
    have hkept : as.map (I.atom env₂) = as.map (I.atom env₁) :=
      List.map_congr_left fun a ha => h₂.block.atom_eq hrun' hu (h₁.known a ha)
    refine ⟨env₂, by rw [I.execute_append, hrun, Option.bind_some, hrun'], ?_⟩
    rw [List.map_append, List.map_append, hkept, hv, hv']

/-- **An operation on evaluated nodes** declares the next temporary, which has the value of the node
it makes. -/
theorem perform (h : Compiled.{u} uniforms first ns b as ss b₁) (hf : first ≤ b.next) {n : Node}
    {op : Operation} {e : Expr} (hop : b₁.perform op = .ok (e, b₂)) (right : RightSide)
    (htext : right.text = op.value.code) (hatoms : ∀ a ∈ right.atoms, a ∈ as)
    (hv : ∀ {V : Type u} (I : Interpretation V) (env : List (String × V)),
      as.map (I.atom env) = (ns.map fun n => some (I.node n)) → I.right env right = some (I.node n)) :
    ∃ a ss', e.code = a.text ∧ Compiled.{u} uniforms first [n] b [a] ss' b₂ := by
  obtain ⟨-, hw, rfl, rfl⟩ := Builder.perform_eq_ok_iff.1 hop
  let s : Statement := ⟨op.value.ty, tempName b₁.next, right⟩
  refine ⟨.name (tempName b₁.next), ss ++ [s], rfl, ?_, ?_, ?_, fun I env he => ?_⟩
  · obtain ⟨ls, hl, ht⟩ := h.lines
    have hline : (Line.declare b₁.next op).text = s.text := by
      unfold Line.text Statement.text
      rw [htext]
    refine ⟨ls ++ [.declare b₁.next op], ?_, by simp [ht, hline]⟩
    have hwritten : (b₁.declared op).lines = b₁.lines ++ [.declare b₁.next op] :=
      Builder.lines_written (b := { b₁ with next := b₁.next + 1 }) hw _
    rw [hwritten, hl, List.append_assoc]
  · refine h.block.append (.cons rfl (fun a ha => h.known a (hatoms a ha)) .nil)
  · intro a ha
    rw [List.mem_singleton.1 ha]
    exact .inl ⟨b₁.next, Nat.le_trans hf h.block.le, Nat.lt_succ_self _, rfl⟩
  · obtain ⟨env₁, hrun, hvalues⟩ := h.values I env he
    have hright := hv I env₁ hvalues
    refine ⟨(s.name, I.node n) :: env₁, ?_, ?_⟩
    · rw [I.execute_append, hrun, Option.bind_some]
      simp [Interpretation.execute, s, hright]
    · simp [Interpretation.atom, s]

end Compiled

/-! ## Nodes -/

section Nodes

variable {σ α : Type} {f : Fragment} {first : Nat}

/-- What a program answers that evaluates a node is an atom with the value of the node. -/
def Compiles (f : Fragment) (first : Nat) (n : Node) (p : Program σ α) (code : α → String) : Prop :=
  ∀ (m m' : σ) (b b' : Builder) (x : α), first ≤ b.next → p.run m b = (.done x, m', b') →
    ∃ a ss, code x = a.text ∧ Compiled.{u} f.uniforms first [n] b [a] ss b'

/-- After the nodes `ns` another one is evaluated, and then the program goes on. -/
theorem Compiled.next {β : Type} {ns : List Node} {as : List Atom} {ss : List Statement}
    {b b₁ b' : Builder} {n : Node} {p : Program σ α} {code : α → String} {g : α → Program σ β}
    {m m' : σ} {y : β} (hu : ∀ v ∈ f.uniforms, v.IsNameable)
    (h : Compiled.{u} f.uniforms first ns b as ss b₁) (hf : first ≤ b.next)
    (hp : Compiles.{u} f first n p code) (hrun : (p.bind g).run m b₁ = (.done y, m', b')) :
    ∃ x a ss' m₂ b₂, code x = a.text ∧
      Compiled.{u} f.uniforms first (ns ++ [n]) b (as ++ [a]) ss' b₂ ∧
      (g x).run m₂ b₂ = (.done y, m', b') := by
  obtain ⟨x, m₂, b₂, hx, hg⟩ := Program.run_bind_eq_done hrun
  obtain ⟨a, ss', hcode, hc⟩ := hp m m₂ b₁ b₂ x (Nat.le_trans hf h.block.le) hx
  exact ⟨x, a, ss ++ ss', m₂, b₂, hcode, h.append hu hc, hg⟩

/-- A literal stays a number as an operand and becomes an expression otherwise; it reads the same
and has the same value. -/
theorem compiles_operand {n : Node} (hn : n.isFinite = true) {p : Program σ Expr}
    (hp : Compiles.{u} f first n p Expr.code) :
    Compiles.{u} f first n (n.operand p) Operand.code := by
  intro m m' b b' o hf h
  have hexpr (h : (p.bind fun e => .pure (.expr e)).run m b = (.done o, m', b')) :
      ∃ a ss, o.code = a.text ∧ Compiled.{u} f.uniforms first [n] b [a] ss b' := by
    obtain ⟨e, m₁, b₁, hrun, hpure⟩ := Program.run_bind_eq_done h
    cases hpure
    exact hp m _ b _ e hf hrun
  cases n with
  | literal v =>
    cases h
    exact ⟨.number (Shader.literal v), [], rfl, .leaf ⟨v, hn, rfl⟩ fun I env _ => rfl⟩
  | _ => exact hexpr h

section Operations

variable {n k₁ k₂ : Node} {p : Program σ Expr} {q : Program σ Operand}

/-- An operation on one node. -/
theorem compiles_one (hu : ∀ v ∈ f.uniforms, v.IsNameable) (hp : Compiles.{u} f first k₁ p Expr.code)
    (op : Expr → Operation) (right : Atom → RightSide)
    (htext : ∀ (x : Expr) (a : Atom), x.code = a.text → (right a).text = (op x).value.code)
    (hatoms : ∀ a, ∀ c ∈ (right a).atoms, c = a)
    (hv : ∀ {V : Type u} (I : Interpretation V) (env : List (String × V)) (a : Atom),
      I.atom env a = some (I.node k₁) → I.right env (right a) = some (I.node n)) :
    Compiles.{u} f first n (p.bind fun x => .op (op x)) Expr.code := by
  intro m m' b b' e hf h
  obtain ⟨x, a, ss, m₁, b₁, hx, h₁, h⟩ := Compiled.nil.next hu hf hp h
  refine h₁.perform hf (Program.run_op_eq_done h) (right a) (htext x a hx) ?_ fun I env he => ?_
  · exact fun c hc => List.mem_singleton.2 (hatoms a c hc)
  · exact hv I env a (by simpa using he)

/-- An operation on two nodes, the second as an operand. -/
theorem compiles_two (hu : ∀ v ∈ f.uniforms, v.IsNameable) (hp : Compiles.{u} f first k₁ p Expr.code)
    (hq : Compiles.{u} f first k₂ q Operand.code) (op : Expr → Operand → Operation)
    (right : Atom → Atom → RightSide)
    (htext : ∀ (x : Expr) (y : Operand) (a c : Atom), x.code = a.text → y.code = c.text →
      (right a c).text = (op x y).value.code)
    (hatoms : ∀ a c, ∀ d ∈ (right a c).atoms, d ∈ [a, c])
    (hv : ∀ {V : Type u} (I : Interpretation V) (env : List (String × V)) (a c : Atom),
      I.atom env a = some (I.node k₁) → I.atom env c = some (I.node k₂) →
      I.right env (right a c) = some (I.node n)) :
    Compiles.{u} f first n (p.bind fun x => q.bind fun y => .op (op x y)) Expr.code := by
  intro m m' b b' e hf h
  obtain ⟨x, a, ss₁, m₁, b₁, hx, h₁, h⟩ := Compiled.nil.next hu hf hp h
  obtain ⟨y, c, ss₂, m₂, b₂, hy, h₂, h⟩ := h₁.next hu hf hq h
  refine h₂.perform hf (Program.run_op_eq_done h) (right a c) (htext x y a c hx hy) (hatoms a c)
    fun I env he => ?_
  obtain ⟨ha, hc⟩ : I.atom env a = some (I.node k₁) ∧ I.atom env c = some (I.node k₂) := by
    simpa using he
  exact hv I env a c ha hc

end Operations

/-- **Every node is compiled.** -/
theorem compiles_node (hu : ∀ v ∈ f.uniforms, v.IsNameable) (n : Node) (hn : n.isFinite = true) :
    Compiles.{u} f first n (n.program f : Program σ Expr) Expr.code := by
  induction n with
  | coord =>
    intro m m' b b' e hf h
    cases h
    exact ⟨.coord, [], rfl, .leaf trivial fun I env _ => rfl⟩
  | uniform name =>
    intro m m' b b' e hf h
    obtain ⟨hr, -, rfl⟩ := Program.run_ofExcept_eq_done h
    obtain ⟨v, hfind, rfl⟩ := Fragment.uniform_eq_ok_iff.1 hr
    have hv : v ∈ f.uniforms := List.mem_of_find?_eq_some hfind
    have hname : v.name = name := by simpa using List.find?_some hfind
    exact ⟨.name v.name, [], rfl, .leaf (.inr ⟨v, hv, rfl⟩) fun I env he => hname ▸ he v hv⟩
  | literal v =>
    intro m m' b b' e hf h
    cases h
    exact ⟨.number (Shader.literal v), [], rfl, .leaf ⟨v, hn, rfl⟩ fun I env _ => rfl⟩
  | vec2 x y =>
    intro m m' b b' e hf h
    cases h
    simp only [Node.isFinite, Bool.and_eq_true] at hn
    have hy : (y.getD x).isFinite = true := by
      cases y with
      | none => exact hn.1
      | some y => exact hn.2
    exact ⟨.pair (Shader.literal x) (Shader.literal (y.getD x)), [], rfl,
      .leaf ⟨x, y.getD x, hn.1, hy, rfl, rfl⟩ fun I env _ => rfl⟩
  | arithmetic op lhs rhs ihl ihr =>
    simp only [Node.isFinite, Bool.and_eq_true] at hn
    refine compiles_two hu (ihl hn.1) (compiles_operand hn.2 (ihr hn.2)) (.arithmetic op)
      (.arithmetic op) ?_ (by simp [RightSide.atoms]) ?_
    · intro x y a c hx hy
      simp only [RightSide.text, Operation.value, hx, hy]
    · intro V I env a c ha hc
      simp [Interpretation.right, Interpretation.node, ha, hc]
  | intrinsic fn arg ih =>
    refine compiles_one hu (ih hn) (.intrinsic fn) (.intrinsic fn) ?_ (by simp [RightSide.atoms]) ?_
    · intro x a hx
      simp only [RightSide.text, Operation.value, hx]
    · intro V I env a ha
      simp [Interpretation.right, Interpretation.node, ha]
  | step arg edge iha ihe =>
    simp only [Node.isFinite, Bool.and_eq_true] at hn
    refine compiles_two hu (iha hn.1) (compiles_operand hn.2 (ihe hn.2)) .step (fun a c => .step a c a)
      ?_ (by simp [RightSide.atoms]) ?_
    · intro x y a c hx hy
      simp only [RightSide.text, Operation.value, hx, hy]
    · intro V I env a c ha hc
      simp [Interpretation.right, Interpretation.node, ha, hc]
  | smoothstep arg edge₀ edge₁ iha ih₀ ih₁ =>
    simp only [Node.isFinite, Bool.and_eq_true] at hn
    obtain ⟨⟨hna, hn₀⟩, hn₁⟩ := hn
    intro m m' b b' e hf h
    obtain ⟨x, a, ss₁, m₁, b₁, hx, h₁, h⟩ := Compiled.nil.next hu hf (iha hna) h
    obtain ⟨y, a₀, ss₂, m₂, b₂, hy, h₂, h⟩ := h₁.next hu hf (compiles_operand hn₀ (ih₀ hn₀)) h
    obtain ⟨z, a₁, ss₃, m₃, b₃, hz, h₃, h⟩ := h₂.next hu hf (compiles_operand hn₁ (ih₁ hn₁)) h
    refine h₃.perform hf (Program.run_op_eq_done h) (.smoothstep a a₀ a₁) ?_
      (by simp [RightSide.atoms]) fun I env hv => ?_
    · simp only [RightSide.text, Operation.value, hx, hy, hz]
    · obtain ⟨h₁, h₂, h₃⟩ : I.atom env a = some (I.node arg) ∧ I.atom env a₀ = some (I.node edge₀) ∧
          I.atom env a₁ = some (I.node edge₁) := by
        simpa using hv
      simp [Interpretation.right, Interpretation.node, h₁, h₂, h₃]
  | channel c arg ih =>
    refine compiles_one hu (ih hn) (.channel c) (.channel c) ?_ (by simp [RightSide.atoms]) ?_
    · intro x a hx
      simp only [RightSide.text, Operation.value, hx]
    · intro V I env a ha
      simp [Interpretation.right, Interpretation.node, ha]

end Nodes

/-! ## Main blocks -/

theorem mem_of_addUniform {declared us : List Var} {v w : Var}
    (h : Builder.addUniform declared v = .ok us) (hw : w ∈ us) : w ∈ declared ∨ w = v := by
  unfold Builder.addUniform at h
  split at h
  · cases h
    simpa using hw
  · split at h
    · cases h
      exact .inl hw
    · cases h

/-- A build declares no uniform that was not asked for. -/
theorem mem_of_collectUniforms {wanted us : List Var} (h : Builder.collectUniforms wanted = .ok us) :
    ∀ v ∈ us, v ∈ wanted := by
  suffices hfold : ∀ declared, wanted.foldlM Builder.addUniform declared = .ok us →
      ∀ v ∈ us, v ∈ declared ∨ v ∈ wanted by
    intro v hv
    simpa using hfold [] h v hv
  clear h
  induction wanted with
  | nil =>
    intro declared h v hv
    cases h
    exact .inl hv
  | cons w ws ih =>
    intro declared h v hv
    rw [List.foldlM_cons] at h
    cases hadd : Builder.addUniform declared w with
    | error f =>
      rw [hadd] at h
      cases h
    | ok declared' =>
      rw [hadd] at h
      obtain hv | hv := ih declared' h v hv
      · obtain hv | rfl := mem_of_addUniform hadd hv
        · exact .inl hv
        · exact .inr List.mem_cons_self
      · exact .inr (List.mem_cons_of_mem w hv)

/-- **A graph keeps its meaning.** Let the numbers of a graph be finite, and let its uniforms be named
by identifiers other than the names of temporaries. If it is built, on any builder, the lines of the
main block are declarations of one temporary after the other and then the colour. What a declaration
names, is one operation on atoms: temporaries declared before, declared uniforms, numbers, pairs of
numbers, the screen coordinate. Under every interpretation, executing the text of these lines in
order gives the value of the main node for the first argument of the colour. -/
theorem graph_preserves {σ : Type} {g : Graph} (hfinite : g.main.isFinite = true)
    (hnames : ∀ v ∈ g.uniforms, v.IsNameable) {m m' : σ} {b b' : Builder} {out : Output}
    (h : (g.program : Program σ Output).run m b = (.done out, m', b')) :
    ∃ (ss : List Statement) (a : Atom), out.main.map (·.text) = ss.map (·.text) ++ [colorText a] ∧
      (∀ i (hi : i < ss.length), ss[i].name = tempName (b.policy.start b.next + i) ∧
        ∀ c ∈ ss[i].right.atoms,
          c.IsKnown out.uniforms (b.policy.start b.next) (b.policy.start b.next + i)) ∧
      ∀ {V : Type u} (I : Interpretation V),
        I.color? out.uniforms (out.main.map (·.text)) = some (I.node g.main) := by
  have hbind : ((Program.build g.uniforms (fun f => g.main.program f) .pure).bind .ofExcept).run m b =
      (.done out, m', b') := h
  obtain ⟨r, m₁, b₁, hbuild, hr⟩ := Program.run_bind_eq_done hbind
  obtain ⟨rfl, rfl, rfl⟩ := Program.run_ofExcept_eq_done hr
  obtain ⟨-, uniforms, value, b₁, hcollect, hmain, -, -, rfl, -⟩ := Program.run_build_eq_ok hbuild
  have hu : ∀ v ∈ uniforms, v.IsNameable := fun v hv =>
    hnames v (mem_of_collectUniforms hcollect v hv)
  have hkept : b₁.uniforms = uniforms := by
    have hext := (g.main.program ⟨uniforms⟩ : Program σ Expr).run_extends m (b.begun uniforms) rfl
    rw [hmain] at hext
    exact hext.uniforms
  obtain ⟨a, ss, hcode, hc⟩ := compiles_node.{u} (f := ⟨uniforms⟩) hu g.main hfinite m m'
    (b.begun uniforms) b₁ value (Nat.le_refl _) hmain
  have hlines : (b₁.lines ++ [Line.color value]).map Line.text =
      ss.map Statement.text ++ [colorText a] := by
    obtain ⟨ls, hl, ht⟩ := hc.lines
    have hcolor : (Line.color value).text = colorText a := by
      unfold Line.text colorText
      dsimp only
      rw [hcode]
    rw [hl, List.map_append, List.map_singleton, hcolor, ← ht]
    rfl
  refine ⟨ss, a, hlines, fun i hi => ?_, fun I => ?_⟩
  · exact hkept ▸ hc.block.getElem i hi
  · have ha : a.IsReadable := (hc.known a (List.mem_singleton_self a)).isReadable hu
    obtain ⟨env, hrun, hv⟩ := hc.values I _ (I.binds_initial uniforms)
    simp only [hlines, hkept, Interpretation.color?, readMain?_text (hc.block.isReadable hu) ha,
      Option.bind_some, hrun]
    simpa using hv

/-- Twice the first component of the screen coordinate, over a resolution. -/
def ratio : Graph where
  uniforms := [⟨"u_resolution", .vec2⟩]
  main := .arithmetic .mul (.channel .x (.arithmetic .div .coord (.uniform "u_resolution")))
    (.literal (.ofNat 2))

/-- The shader of that graph. -/
def ratioShader : Output where
  uniforms := [⟨"u_resolution", .vec2⟩]
  functions := []
  main := [
    .declare 0 (.arithmetic .div ⟨"gl_FragCoord.xy", .vec2⟩ (.expr ⟨"u_resolution", .vec2⟩)),
    .declare 1 (.channel .x ⟨"v0", .vec2⟩),
    .declare 2 (.arithmetic .mul ⟨"v1", .float⟩ (.number (.ofNat 2))),
    .color ⟨"v2", .float⟩]

/-- The lines of that shader have the value of the graph. -/
theorem graph_preserves_ratio :
    (∃ b', (ratio.program : Program Unit Output).run () (.new .perBuild) =
      (.done ratioShader, (), b')) ∧
    ratioShader.main.map (·.text) = ["vec2 v0 = gl_FragCoord.xy / u_resolution;", "float v1 = v0.x;",
      "float v2 = v1 * 2.0;", "gl_FragColor = vec4(v2, 0.0, 1.0);"] ∧
    ∀ {V : Type} (I : Interpretation V),
      I.color? ratioShader.uniforms (ratioShader.main.map (·.text)) = some (I.node ratio.main) := by
  have hrun : ∃ b', (ratio.program : Program Unit Output).run () (.new .perBuild) =
      (.done ratioShader, (), b') := by
    refine ⟨((ratio.program : Program Unit Output).run () (.new .perBuild)).2.2, ?_⟩
    rw [Graph.program, Program.shader, Program.run_build, Program.run_build_of_not_building rfl]
    rfl
  have hnames : ∀ v ∈ ratio.uniforms, v.IsNameable := by
    intro v hv
    obtain rfl : v = ⟨"u_resolution", .vec2⟩ := List.mem_singleton.1 hv
    refine ⟨rfl, fun n hn => ?_⟩
    have hchars := congrArg String.toList hn
    rw [toList_tempName] at hchars
    exact absurd (List.cons.inj hchars).1 (by decide)
  obtain ⟨b', h⟩ := hrun
  obtain ⟨-, -, -, -, hvalue⟩ := graph_preserves rfl hnames h
  exact ⟨⟨b', h⟩, by decide +kernel, hvalue⟩

end Shader
