import Shader.Proofs.Clashes
import Shader.Proofs.Limits
import Shader.Proofs.Printing

/-!
# The numbers that a graph prints

Every operation of a graph becomes a line, in which the nodes it is applied to are printed. A node that
is an operation itself is printed as the name of a temporary, and all others as they are. So the only
numbers in the lines are those of literals and pairs, and they are decimals as long as the numbers of the
graph are finite.

* `Node.IsPrintedAs`: the text of a node where it is used; `Node.IsPrintedBy`: the nodes in an operation;
* `Lays`: programs that carry out the operations of nodes; `Lays.bind`, `lays_op`: its laws;
  **`lays_node`**: every node, by recursion on the tree;
* **`Graph.documents_within_limits`**: depth, numbers and lines of every graph that is read.
-/

namespace Shader

open Json

variable {σ α β : Type}

/-! ## Printed nodes -/

/-- What an operation is applied to, the receiver first. -/
def Operation.operands : Operation → List Operand
  | arithmetic _ a b => [.expr a, b]
  | intrinsic _ a | channel _ a => [.expr a]
  | step a edge => [.expr a, edge]
  | smoothstep a edge₀ edge₁ => [.expr a, edge₀, edge₁]
  | call _ args => args

namespace Node

/-- The nodes that a node is applied to. -/
def parts : Node → List Node
  | .coord | .uniform _ | .literal _ | .vec2 _ _ => []
  | .arithmetic _ lhs rhs => [lhs, rhs]
  | .intrinsic _ arg | .channel _ arg => [arg]
  | .step arg edge => [arg, edge]
  | .smoothstep arg edge₀ edge₁ => [arg, edge₀, edge₁]

/-- The text of a node where it is used: the screen coordinate, the name of a uniform, a decimal, a pair
of decimals, or the name of a temporary. -/
def IsPrintedAs (uniforms : List Var) : Node → String → Prop
  | .coord, text => text = "gl_FragCoord.xy"
  | .uniform name, text => text = name ∧ name ∈ uniforms.map (·.name)
  | .literal v, text => text = Shader.literal v ∧ IsDecimal text
  | .vec2 x y, text => ∃ first second, text = "vec2(" ++ first ++ ", " ++ second ++ ")" ∧
      first = Shader.literal x ∧ second = Shader.literal (y.getD x) ∧
      IsDecimal first ∧ IsDecimal second
  | _, text => ∃ n, text = tempName n

/-- An operation carries out a node, and what it is applied to are the texts of the parts. -/
structure IsPrintedBy (uniforms : List Var) (n : Node) (op : Operation) : Prop where
  done : n.isDoneBy op = true
  parts : List.Forall₂ (IsPrintedAs uniforms) n.parts (op.operands.map (·.code))

end Node

/-! ## Programs of nodes -/

section Lays

variable {uniforms : List Var} {ns ms : List Node} {Q : α → Prop} {R : β → Prop}

/-- When the program ends well, it has carried out the operations of the nodes, one for each, and its
answer is what it should be. -/
def Lays (uniforms : List Var) (ns : List Node) (Q : α → Prop) (p : Program σ α) : Prop :=
  ∀ (m m' : σ) (b b' : Builder) (x : α), b.isWriting = true → p.run m b = (.done x, m', b') →
    ∃ ops, b' = b.declaredAll ops ∧ List.Forall₂ (Node.IsPrintedBy uniforms) ns ops ∧ Q x

theorem lays_pure {x : α} (hx : Q x) : Lays (σ := σ) uniforms [] Q (.pure x) := by
  intro m m' b b' y _ h
  cases h
  exact ⟨[], rfl, .nil, hx⟩

/-- **Nodes are evaluated one after the other.** -/
theorem Lays.bind {p : Program σ α} {g : α → Program σ β} (hp : Lays uniforms ns Q p)
    (hg : ∀ x, Q x → Lays uniforms ms R (g x)) : Lays uniforms (ns ++ ms) R (p.bind g) := by
  intro m m' b b' y hw h
  obtain ⟨x, m₁, b₁, hx, hy⟩ := Program.run_bind_eq_done h
  obtain ⟨ops, rfl, hops, hQ⟩ := hp m m₁ b b₁ x hw hx
  have hw' := Builder.isWriting_declaredAll hw ops
  obtain ⟨ops', rfl, hops', hR⟩ := hg x hQ m₁ m' _ b' y hw' hy
  exact ⟨ops ++ ops', (b.declaredAll_append ops ops').symm, List.rel_append hops hops', hR⟩

/-- **An operation on parts that are printed** answers a temporary. -/
theorem lays_op {n : Node} {op : Operation} (h : n.IsPrintedBy uniforms op) :
    Lays (σ := σ) uniforms [n] (fun e => n.IsPrintedAs uniforms e.code) (.op op) := by
  intro m m' b b' e hw hrun
  obtain ⟨-, -, rfl, rfl⟩ := Builder.perform_eq_ok_iff.1 (Program.run_op_eq_done hrun)
  refine ⟨[op], rfl, .cons h .nil, ?_⟩
  cases n with
  | coord | uniform | literal | vec2 =>
    have hdone := h.done
    simp [Node.isDoneBy] at hdone
  | _ => exact ⟨b.next, rfl⟩

/-- The text of a literal is the same for an operand, which stays a number. -/
theorem lays_operand {n : Node} (hn : ∀ x ∈ n.numbers, x.isFinite = true) {p : Program σ Expr}
    (hp : Lays uniforms n.operations (fun e => n.IsPrintedAs uniforms e.code) p) :
    Lays uniforms n.operations (fun o => n.IsPrintedAs uniforms o.code) (n.operand p) := by
  have hexpr : Lays uniforms n.operations (fun o : Operand => n.IsPrintedAs uniforms o.code)
      (p.bind fun e => .pure (.expr e)) := by
    rw [← List.append_nil n.operations]
    exact hp.bind fun e he => lays_pure he
  cases n with
  | literal v => exact lays_pure ⟨rfl, isDecimal_literal (hn v (List.mem_singleton_self v))⟩
  | _ => exact hexpr

/-- **Every node** carries out its operations and is printed, if its uniforms are among those given and
its numbers are finite. -/
theorem lays_node {f : Fragment} (hf : f.uniforms ⊆ uniforms) (n : Node)
    (hn : ∀ x ∈ n.numbers, x.isFinite = true) :
    Lays uniforms n.operations (fun e => n.IsPrintedAs uniforms e.code)
      (n.program f : Program σ Expr) := by
  induction n with
  | coord => exact lays_pure rfl
  | uniform name =>
    intro m m' b b' e hw h
    obtain ⟨hfound, -, rfl⟩ := Program.run_ofExcept_eq_done h
    obtain ⟨v, hv, rfl⟩ := Fragment.uniform_eq_ok_iff.1 hfound
    have hname : v.name = name := by simpa using List.find?_some hv
    have hmem : v.name ∈ uniforms.map (·.name) :=
      List.mem_map_of_mem (hf (List.mem_of_find?_eq_some hv))
    exact ⟨[], rfl, .nil, hname, hname ▸ hmem⟩
  | literal v => exact lays_pure ⟨rfl, isDecimal_literal (hn v (List.mem_singleton_self v))⟩
  | vec2 x y =>
    obtain ⟨hx, hy⟩ := List.forall_mem_cons.1 hn
    have hsecond : (y.getD x).isFinite = true := by
      cases y with
      | none => exact hx
      | some y => exact hy y (by simp)
    exact lays_pure ⟨_, _, rfl, rfl, rfl, isDecimal_literal hx, isDecimal_literal hsecond⟩
  | arithmetic op lhs rhs ihl ihr =>
    obtain ⟨hl, hr⟩ := List.forall_mem_append.1 hn
    have hops : (Node.arithmetic op lhs rhs).operations =
        lhs.operations ++ (rhs.operations ++ [.arithmetic op lhs rhs]) := by
      simp [Node.operations, Node.postorder, Node.isOperation]
    rw [hops]
    refine (ihl hl).bind fun a ha => (lays_operand hr (ihr hr)).bind fun c hc => lays_op ⟨?_, ?_⟩
    · simp [Node.isDoneBy]
    · exact .cons ha (.cons hc .nil)
  | intrinsic fn arg ih =>
    have hops : (Node.intrinsic fn arg).operations = arg.operations ++ [.intrinsic fn arg] := by
      simp [Node.operations, Node.postorder, Node.isOperation]
    rw [hops]
    refine (ih hn).bind fun a ha => lays_op ⟨?_, ?_⟩
    · simp [Node.isDoneBy]
    · exact .cons ha .nil
  | step arg edge iha ihe =>
    obtain ⟨harg, hedge⟩ := List.forall_mem_append.1 hn
    have hops : (Node.step arg edge).operations =
        arg.operations ++ (edge.operations ++ [.step arg edge]) := by
      simp [Node.operations, Node.postorder, Node.isOperation]
    rw [hops]
    refine (iha harg).bind fun a ha =>
      (lays_operand hedge (ihe hedge)).bind fun c hc => lays_op ⟨rfl, ?_⟩
    exact .cons ha (.cons hc .nil)
  | smoothstep arg edge₀ edge₁ iha ih₀ ih₁ =>
    obtain ⟨harg, hedges⟩ := List.forall_mem_append.1 hn
    obtain ⟨h₀, h₁⟩ := List.forall_mem_append.1 hedges
    have hops : (Node.smoothstep arg edge₀ edge₁).operations = arg.operations ++
        (edge₀.operations ++ (edge₁.operations ++ [.smoothstep arg edge₀ edge₁])) := by
      simp [Node.operations, Node.postorder, Node.isOperation]
    rw [hops]
    refine (iha harg).bind fun a ha => (lays_operand h₀ (ih₀ h₀)).bind fun c hc =>
      (lays_operand h₁ (ih₁ h₁)).bind fun d hd => lays_op ⟨rfl, ?_⟩
    exact .cons ha (.cons hc (.cons hd .nil))
  | channel c arg ih =>
    have hops : (Node.channel c arg).operations = arg.operations ++ [.channel c arg] := by
      simp [Node.operations, Node.postorder, Node.isOperation]
    rw [hops]
    refine (ih hn).bind fun a ha => lays_op ⟨?_, ?_⟩
    · simp [Node.isDoneBy]
    · exact .cons ha .nil

end Lays

/-! ## Graphs -/

namespace Graph

/-- **The lines of a graph with finite numbers**: one for every operation, with its parts as they are
printed, and then the colour, which is the main node as it is printed. -/
theorem lines_printed {g : Graph} (hfinite : ∀ x ∈ g.main.numbers, x.isFinite = true) {m m' : σ}
    {b b' : Builder} {out : Output}
    (h : (g.program : Program σ Output).run m b = (.done out, m', b')) :
    ∃ ops e, out.main = Builder.declarations (b.policy.start b.next) ops ++ [.color e] ∧
      List.Forall₂ (Node.IsPrintedBy g.uniforms) g.main.operations ops ∧
      g.main.IsPrintedAs g.uniforms e.code := by
  have hbuild := Program.run_shader_eq_done h
  obtain ⟨-, uniforms, value, b₁, hcollect, hmain, -, -, rfl, -⟩ := Program.run_build_eq_ok hbuild
  have hw : (b.begun uniforms).isWriting = true := rfl
  have hsub : (Fragment.mk uniforms).uniforms ⊆ g.uniforms := fun v hv =>
    mem_of_collectUniforms hcollect v hv
  obtain ⟨ops, rfl, hops, hvalue⟩ := lays_node hsub g.main hfinite m m' _ b₁ value hw hmain
  refine ⟨ops, value, ?_, hops, hvalue⟩
  have hlines := Builder.lines_declaredAll hw ops
  rw [hlines]
  rfl

/-- **The limits of documents.** Let a graph be read from a text, whatever its form. Its main node has at
most 126 nodes inside each other, and so many evaluations inside each other are enough to evaluate it.
All its numbers are finite. Whenever it is built, on any builder, the main block has one line for every
operation and the line of the colour. Every part of an operation is printed as the screen coordinate, a
uniform, a temporary, or as numbers, each of which is an optional sign, digits, a point and one digit; and
so is the main node. -/
theorem documents_within_limits {text : String} {g : Graph} (h : ofText text = .ok g) :
    g.main.height ≤ 126 ∧
    (∀ {σ : Type} (f : Fragment),
      g.main.programWithin f 126 = some (g.main.program f : Program σ Expr)) ∧
    (∀ x ∈ g.main.numbers, x.isFinite = true) ∧
    ∀ {σ : Type} {m m' : σ} {b b' : Builder} {out : Output},
      (g.program : Program σ Output).run m b = (.done out, m', b') →
      ∃ ops e, out.main = Builder.declarations (b.policy.start b.next) ops ++ [.color e] ∧
        List.Forall₂ (Node.IsPrintedBy g.uniforms) g.main.operations ops ∧
        g.main.IsPrintedAs g.uniforms e.code := by
  obtain ⟨hheight, hfinite⟩ := within_of_ofText h
  refine ⟨hheight, fun f => ?_, hfinite, fun hrun => ?_⟩
  · exact g.main.programWithin_eq f hheight
  · exact lines_printed hfinite hrun

/-- A number near the largest. -/
def huge : Binary64 := powerOfTen 308

/-- Minus one quarter. -/
def minusQuarter : Binary64 := (Binary64.div (.ofNat 1) (.ofNat 4)).neg

/-- A document with a repeated uniform, with members that mean nothing, one of them a number beyond all
others, and with nodes as arrays inside a node as an object. -/
def unusualDocument : String :=
  "\x7b\"note\":[1e999],\"main\":\x7b\"rhs\":[\"literal\",-25e-2],\"op\":\"mul\",\"color\":\x7b\x7d,\n" ++
    "  \"lhs\":[\"x\",[\"vec2\",1E308,null]]\x7d, \"uniforms\":\x7b\"t\":\"float\",\"t\":\"float\"\x7d\x7d"

/-- The graph of that document. -/
def unusual : Graph where
  uniforms := [⟨"t", .float⟩, ⟨"t", .float⟩]
  main := .arithmetic .mul (.channel .x (.vec2 huge none)) (.literal minusQuarter)

/-- The shader of that graph. -/
def unusualShader : Output where
  uniforms := [⟨"t", .float⟩]
  functions := []
  main := [.declare 0 (.channel .x (.vec2 huge none)),
    .declare 1 (.arithmetic .mul ⟨"v0", .float⟩ (.number minusQuarter)), .color ⟨"v1", .float⟩]

/-- That document is read, its graph is built, and both are within the limits. -/
theorem documents_within_limits_unusual :
    ofText unusualDocument = .ok unusual ∧ unusual.main.height ≤ 126 ∧
    (∀ x ∈ unusual.main.numbers, x.isFinite = true) ∧
    (∃ b', (unusual.program : Program Unit Output).run () (.new .perBuild) =
      (.done unusualShader, (), b')) ∧
    (unusualShader.main.map (·.text))[1]? = some "float v1 = v0 * -0.3;" ∧
    ∃ ops e, unusualShader.main = Builder.declarations 0 ops ++ [.color e] ∧
      List.Forall₂ (Node.IsPrintedBy unusual.uniforms) unusual.main.operations ops ∧
      unusual.main.IsPrintedAs unusual.uniforms e.code := by
  have hread : ofText unusualDocument = .ok unusual := eq_ok_of_toOption (by decide +kernel)
  obtain ⟨b', hrun⟩ : ∃ b', (unusual.program : Program Unit Output).run () (.new .perBuild) =
      (.done unusualShader, (), b') := by
    refine ⟨((unusual.program : Program Unit Output).run () (.new .perBuild)).2.2, ?_⟩
    rw [Graph.program, Program.shader, Program.run_build, Program.run_build_of_not_building rfl]
    rfl
  obtain ⟨hheight, -, hfinite, hlines⟩ := documents_within_limits hread
  exact ⟨hread, hheight, hfinite, ⟨b', hrun⟩, by decide +kernel, hlines hrun⟩

end Graph

end Shader
