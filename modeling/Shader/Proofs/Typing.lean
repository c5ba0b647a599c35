import Mathlib.Data.List.Forall2
import Shader.Graph
import Shader.Proofs.Calls

/-!
# The types of graphs

A node has a type, by recursion on the tree, or it has none. A graph whose main node has a type is
built, and every operation in it declares a temporary of its type. Otherwise the build fails for the
first node, operands before operations and left before right, whose operands have types that it does
not take.

* `Node.typeOf`: the type of a node; `Node.postorder`: the nodes of a tree in the order of evaluation;
  `Node.fault`: what is wrong with a node itself;
* `Evaluates`: a program follows the types; `evaluates_one`, `evaluates_two`: operations on nodes;
  **`evaluates_node`**: every node, by recursion on the tree;
* **`graph_typing`**: the build of a graph.
-/

namespace Shader

variable {σ α β : Type}

/-! ## Types -/

/-- The types that a function of one argument takes. -/
def Intrinsic.domain : Intrinsic → List Ty
  | sin | cos => [.float, .vec2, .vec3, .vec4]
  | normalize => [.vec2, .vec3, .vec4]

/-- The types of the vectors that have a component. -/
def Channel.vectors : Channel → List Ty
  | x | y => [.vec2, .vec3, .vec4]
  | z => [.vec3, .vec4]
  | w => [.vec4]

theorem Intrinsic.takes_iff (fn : Intrinsic) (t : Ty) : fn.takes t = true ↔ t ∈ fn.domain := by
  cases fn <;> cases t <;> decide

theorem Channel.isIn_iff (c : Channel) (t : Ty) : c.isIn t = true ↔ t ∈ c.vectors := by
  cases c <;> cases t <;> decide

/-- A value of type `s` may stand beside a receiver of type `t`. -/
def Ty.IsBeside (s t : Ty) : Prop := s = .float ∨ s = t

instance (s t : Ty) : Decidable (s.IsBeside t) := by
  unfold Ty.IsBeside
  infer_instance

namespace Node

variable (env : String → Option Ty)

/-- The type of a node, given those of the uniforms. -/
def typeOf : Node → Option Ty
  | .coord => some .vec2
  | .uniform name => env name
  | .literal _ => some .float
  | .vec2 _ _ => some .vec2
  | .arithmetic _ receiver other | .step receiver other => do
    let t ← typeOf receiver
    let s ← typeOf other
    if s.IsBeside t then some t else none
  | .smoothstep receiver edge₀ edge₁ => do
    let t ← typeOf receiver
    let s₀ ← typeOf edge₀
    let s₁ ← typeOf edge₁
    if s₀.IsBeside t ∧ s₁.IsBeside t then some t else none
  | .intrinsic fn arg => do
    let t ← typeOf arg
    if t ∈ fn.domain then some t else none
  | .channel c arg => do
    let t ← typeOf arg
    if t ∈ c.vectors then some .float else none

/-- All nodes of a tree: operands before the node itself, from left to right. -/
def postorder : Node → List Node
  | .arithmetic op lhs rhs => postorder lhs ++ postorder rhs ++ [.arithmetic op lhs rhs]
  | .intrinsic fn arg => postorder arg ++ [.intrinsic fn arg]
  | .step arg edge => postorder arg ++ postorder edge ++ [.step arg edge]
  | .smoothstep arg edge₀ edge₁ =>
    postorder arg ++ postorder edge₀ ++ postorder edge₁ ++ [.smoothstep arg edge₀ edge₁]
  | .channel c arg => postorder arg ++ [.channel c arg]
  | n => [n]

/-- Whether a node is an operation. All others are written where they are used. -/
def isOperation : Node → Bool
  | .coord | .uniform _ | .literal _ | .vec2 _ _ => false
  | _ => true

/-- The failure of a value of type `s` beside a receiver of type `t`. -/
def misfit (operation : String) (t s : Ty) : Option Failure :=
  if s.IsBeside t then none else some (mismatch operation ("float or " ++ t.keyword) s)

/-- What is wrong with a node itself: it names no uniform, or its operands have types, but not those
that it takes. Of two edges the first that does not fit counts. -/
def fault : Node → Option Failure
  | .uniform name => if env name = none then some ⟨.unknownUniform name, none⟩ else none
  | .arithmetic op receiver other => do
    let t ← typeOf env receiver
    let s ← typeOf env other
    misfit op.name t s
  | .step receiver other => do
    let t ← typeOf env receiver
    let s ← typeOf env other
    misfit "step" t s
  | .smoothstep receiver edge₀ edge₁ => do
    let t ← typeOf env receiver
    let s₀ ← typeOf env edge₀
    let s₁ ← typeOf env edge₁
    (misfit "smoothstep" t s₀).or (misfit "smoothstep" t s₁)
  | .intrinsic fn arg => do
    let t ← typeOf env arg
    if t ∈ fn.domain then none else some (mismatch fn.name fn.accepted t)
  | .channel c arg => do
    let t ← typeOf env arg
    if t ∈ c.vectors then none else some (mismatch ("." ++ c.name) c.accepted t)
  | _ => none

/-- The operations of a tree, in the order of evaluation. -/
def operations (n : Node) : List Node := n.postorder.filter isOperation

/-- Whether an operation carries out a node, as far as operator and function go. -/
def isDoneBy : Node → Operation → Bool
  | .arithmetic op _ _, .arithmetic op' _ _ => op = op'
  | .intrinsic fn _, .intrinsic fn' _ => fn = fn'
  | .step _ _, .step _ _ | .smoothstep _ _ _, .smoothstep _ _ _ => true
  | .channel c _, .channel c' _ => c = c'
  | _, _ => false

/-- The declaration of an operation stands for a node and has its type. -/
def Becomes (n : Node) (op : Operation) : Prop :=
  n.isDoneBy op = true ∧ n.typeOf env = some op.value.ty

end Node

/-- Fail with the failure that there is, if any. -/
def raise : Option Failure → Except Failure Unit
  | none => .ok ()
  | some f => .error f

theorem raise_or (f g : Option Failure) : (do raise f; raise g) = raise (f.or g) := by
  cases f <;> rfl

/-! ## Evaluation -/

/-- The builder after operations have been carried out. -/
def Builder.declaredAll (b : Builder) (ops : List Operation) : Builder :=
  ops.foldl Builder.declared b

/-- Nodes have been evaluated without a fault, by one operation for each that needs one. -/
structure Walked (env : String → Option Ty) (nodes : List Node) (ops : List Operation) : Prop where
  becomes : List.Forall₂ (Node.Becomes env) (nodes.filter Node.isOperation) ops
  faultless : nodes.findSome? (Node.fault env) = none

/-- The end of an evaluation of nodes that follows the types. If there is a type `t`, the answer is a
value of it (which is what `has` says), after a declaration for every operation. If there is none, the
failure is that of the first node that is wrong in itself. -/
def FollowsTypes (env : String → Option Ty) (type : Option Ty) (nodes : List Node) (has : α → Ty → Prop)
    (m : σ) (b : Builder) (ran : Outcome α × σ × Builder) : Prop :=
  (∃ t x ops, type = some t ∧ ran = (.done x, m, b.declaredAll ops) ∧ has x t ∧
    Walked env nodes ops) ∨
  ∃ f b', type = none ∧ ran = (.failed f, m, b') ∧ nodes.findSome? (Node.fault env) = some f

/-- A program that stands for a node follows the types. -/
def Evaluates (env : String → Option Ty) (n : Node) (has : α → Ty → Prop) (p : Program σ α) : Prop :=
  ∀ (m : σ) (b : Builder), b.isWriting = true →
    FollowsTypes env (n.typeOf env) n.postorder has m b (p.run m b)

/-- The type of an expression. -/
def Expr.HasType (e : Expr) (t : Ty) : Prop := e.ty = t

/-- The type of an operand; a number is a scalar. -/
def Operand.HasType (o : Operand) (t : Ty) : Prop := o.ty?.getD .float = t

theorem Operand.checkBeside_of_hasType {o : Operand} {s : Ty} (ho : o.HasType s)
    (operation : String) (t : Ty) :
    o.checkBeside operation t = raise (Node.misfit operation t s) := by
  unfold HasType at ho
  unfold checkBeside Node.misfit
  cases h : o.ty? with
  | none =>
    rw [h] at ho
    simp [← ho, Ty.IsBeside, raise]
  | some r =>
    rw [h] at ho
    obtain rfl : r = s := ho
    by_cases hf : r = .float ∨ r = t
    · simp [Ty.IsBeside, hf, raise]
    · simp [Ty.IsBeside, hf, raise]

namespace Builder

theorem isWriting_declared {b : Builder} (hw : b.isWriting = true) (op : Operation) :
    (b.declared op).isWriting = true := by
  obtain ⟨hb, hs⟩ := isWriting_iff.1 hw
  exact isWriting_iff.2 ⟨hb, by simpa [declared, written, append, report] using hs⟩

theorem isWriting_declaredAll {b : Builder} (hw : b.isWriting = true) (ops : List Operation) :
    (b.declaredAll ops).isWriting = true := by
  induction ops generalizing b with
  | nil => exact hw
  | cons op ops ih => exact ih (isWriting_declared hw op)

theorem declaredAll_append (b : Builder) (ops ops' : List Operation) :
    b.declaredAll (ops ++ ops') = (b.declaredAll ops).declaredAll ops' :=
  List.foldl_append

end Builder

namespace Program

theorem run_bind_of_done {p : Program σ α} {m m' : σ} {b b' : Builder} {x : α}
    (h : p.run m b = (.done x, m', b')) (g : α → Program σ β) :
    (p.bind g).run m b = (g x).run m' b' := by
  rw [run_bind, h]
  rfl

theorem run_bind_of_failed {p : Program σ α} {m m' : σ} {b b' : Builder} {f : Failure}
    (h : p.run m b = (.failed f, m', b')) (g : α → Program σ β) :
    (p.bind g).run m b = (.failed f, m', b') := by
  rw [run_bind, h]
  rfl

end Program

section Evaluates

variable {env : String → Option Ty} {n k k₀ k₁ : Node} {nodes before rest : List Node}
  {ops ops' : List Operation} {type : Option Ty}

theorem Walked.nil : Walked env [] [] := ⟨.nil, rfl⟩

theorem Walked.append (h : Walked env before ops) (h' : Walked env rest ops') :
    Walked env (before ++ rest) (ops ++ ops') where
  becomes := by
    rw [List.filter_append]
    exact List.rel_append h.becomes h'.becomes
  faultless := by rw [List.findSome?_append, h.faultless, Option.none_or, h'.faultless]

/-- **The next operand.** After some nodes another one is evaluated. If it has a type, the program goes
on with its value; if it has none, that is the end, whatever would have come behind. -/
theorem Evaluates.next {has : α → Ty → Prop} {has' : β → Ty → Prop} {p : Program σ α}
    (hp : Evaluates env k has p) (rest : List Node) {m : σ} {b : Builder} (hw : b.isWriting = true)
    (hwalked : Walked env before ops) (hnodes : nodes = before ++ k.postorder ++ rest)
    {g : α → Program σ β} (hnone : k.typeOf env = none → type = none)
    (hg : ∀ t x ops', k.typeOf env = some t → has x t → Walked env (before ++ k.postorder) ops' →
      FollowsTypes env type nodes has' m b ((g x).run m (b.declaredAll ops'))) :
    FollowsTypes env type nodes has' m b ((p.bind g).run m (b.declaredAll ops)) := by
  have hw' := Builder.isWriting_declaredAll hw ops
  obtain ⟨t, x, ops', ht, hrun, hx, hk⟩ | ⟨f, b', ht, hrun, hf⟩ := hp m _ hw'
  · rw [Program.run_bind_of_done hrun, ← Builder.declaredAll_append]
    exact hg t x _ ht hx (hwalked.append hk)
  · refine .inr ⟨f, b', hnone ht, Program.run_bind_of_failed hrun g, ?_⟩
    rw [hnodes, List.append_assoc, List.findSome?_append, hwalked.faultless, Option.none_or,
      List.findSome?_append, hf, Option.some_or]

/-- The first operand. -/
theorem Evaluates.first {has : α → Ty → Prop} {has' : β → Ty → Prop} {p : Program σ α}
    (hp : Evaluates env k has p) (rest : List Node) {m : σ} {b : Builder} (hw : b.isWriting = true)
    (hnodes : nodes = k.postorder ++ rest) {g : α → Program σ β}
    (hnone : k.typeOf env = none → type = none)
    (hg : ∀ t x ops, k.typeOf env = some t → has x t → Walked env k.postorder ops →
      FollowsTypes env type nodes has' m b ((g x).run m (b.declaredAll ops))) :
    FollowsTypes env type nodes has' m b ((p.bind g).run m b) :=
  hp.next rest hw .nil hnodes hnone hg

/-- **The operation of a node**, after its operands have been evaluated. What is wrong with the node
itself is `own`. -/
theorem followsTypes_perform {own : Option Failure} {t : Ty} {o : Operation} {b : Builder}
    (hw : b.isWriting = true) (hwalked : Walked env before ops) (hop : n.isOperation = true)
    (hdone : n.isDoneBy o = true) (hfault : n.fault env = own)
    (htype : n.typeOf env = if own = none then some t else none) (ht : o.value.ty = t)
    (hcheck : o.check = raise own) (m : σ) :
    FollowsTypes env (n.typeOf env) (before ++ [n]) Expr.HasType m b
      ((Program.op o : Program σ Expr).run m (b.declaredAll ops)) := by
  have hw' := Builder.isWriting_declaredAll hw ops
  rw [Program.run_op]
  cases own with
  | none =>
    rw [if_pos rfl] at htype
    have hperform := Builder.perform_eq_ok_iff.2 ⟨hcheck, hw', rfl, rfl⟩
    refine .inl ⟨t, (b.declaredAll ops).temp o.value.ty, ops ++ [o], htype, ?_, ht, ?_⟩
    · rw [hperform, Builder.declaredAll_append]
      rfl
    · refine hwalked.append ⟨?_, by simp [hfault]⟩
      rw [List.filter_cons_of_pos hop]
      exact .cons ⟨hdone, ht ▸ htype⟩ .nil
  | some f =>
    refine .inr ⟨f, b.declaredAll ops, htype, ?_, ?_⟩
    · simp [Builder.perform, hcheck, raise, bind, Except.bind]
    · rw [List.findSome?_append, hwalked.faultless, Option.none_or, List.findSome?_singleton, hfault]

/-- A node that is written where it is used. -/
theorem followsTypes_leaf {has : α → Ty → Prop} {t : Ty} {x : α} (hx : has x t)
    (hpost : n.postorder = [n]) (hop : n.isOperation = false) (htype : n.typeOf env = some t)
    (hfault : n.fault env = none) (m : σ) (b : Builder) :
    FollowsTypes env (n.typeOf env) n.postorder has m b ((Program.pure x).run m b) := by
  refine .inl ⟨t, x, [], htype, rfl, hx, ?_, ?_⟩
  · simp [hpost, hop]
  · simp [hpost, hfault]

/-- An operand keeps the type of its node. A literal, which becomes a number, is a scalar. -/
theorem Evaluates.operand {p : Program σ Expr} (hp : Evaluates env k Expr.HasType p) :
    Evaluates env k Operand.HasType (k.operand p) := by
  intro m b hw
  have hexpr : FollowsTypes env (k.typeOf env) k.postorder Operand.HasType m b
      ((p.bind fun e => .pure (.expr e)).run m b) := by
    refine hp.first [] hw (by simp) id
      fun t e ops' ht he hwalked => .inl ⟨t, .expr e, ops', ht, rfl, he, hwalked⟩
  cases k with
  | literal v =>
    have hv : Operand.HasType (.number v) .float := rfl
    exact followsTypes_leaf hv rfl rfl rfl rfl m b
  | _ => exact hexpr

/-- An operation on one node. -/
theorem evaluates_one {p : Program σ Expr} (hp : Evaluates env k Expr.HasType p)
    (op : Expr → Operation) (own : Ty → Option Failure) (result : Ty → Ty)
    (hpost : n.postorder = k.postorder ++ [n]) (hop : n.isOperation = true)
    (hdone : ∀ x, n.isDoneBy (op x) = true) (hfault : n.fault env = (k.typeOf env).bind own)
    (htype : n.typeOf env = (k.typeOf env).bind fun t => if own t = none then some (result t) else none)
    (ht : ∀ x, (op x).value.ty = result x.ty) (hcheck : ∀ x, (op x).check = raise (own x.ty)) :
    Evaluates env n Expr.HasType (p.bind fun x => .op (op x)) := by
  intro m b hw
  refine hp.first [n] hw hpost (fun hk => by simp [htype, hk]) ?_
  rintro _ x ops hk rfl hwalked
  rw [hk, Option.bind_some] at hfault htype
  rw [hpost]
  exact followsTypes_perform hw hwalked hop (hdone x) hfault htype (ht x) (hcheck x) m

/-- An operation on two nodes, the second as an operand. -/
theorem evaluates_two {p : Program σ Expr} {q : Program σ Operand}
    (hp : Evaluates env k Expr.HasType p) (hq : Evaluates env k₀ Operand.HasType q)
    (op : Expr → Operand → Operation) (operation : String)
    (hpost : n.postorder = k.postorder ++ k₀.postorder ++ [n]) (hop : n.isOperation = true)
    (hdone : ∀ x y, n.isDoneBy (op x y) = true)
    (hfault : n.fault env = (k.typeOf env).bind fun t => (k₀.typeOf env).bind (Node.misfit operation t))
    (htype : n.typeOf env =
      (k.typeOf env).bind fun t => (k₀.typeOf env).bind fun s => if s.IsBeside t then some t else none)
    (ht : ∀ x y, (op x y).value.ty = x.ty)
    (hcheck : ∀ x y, (op x y).check = y.checkBeside operation x.ty) :
    Evaluates env n Expr.HasType (p.bind fun x => q.bind fun y => .op (op x y)) := by
  intro m b hw
  refine hp.first (k₀.postorder ++ [n]) hw (by simp [hpost])
    (fun hk => by simp [htype, hk]) ?_
  rintro _ x ops hk rfl hwalked
  rw [hk, Option.bind_some] at hfault htype
  refine hq.next [n] hw hwalked hpost (fun hk₀ => by simp [htype, hk₀]) ?_
  intro s y ops₀ hk₀ hy hwalked₀
  rw [hk₀, Option.bind_some] at hfault htype
  rw [hpost]
  refine followsTypes_perform hw hwalked₀ hop (hdone x y) hfault ?_ (ht x y) ?_ m
  · rw [htype]
    by_cases hs : s.IsBeside x.ty <;> simp [Node.misfit, hs]
  · rw [hcheck, Operand.checkBeside_of_hasType hy]

/-- The smooth step, on three nodes. -/
theorem evaluates_smoothstep {p : Program σ Expr} {q₀ q₁ : Program σ Operand}
    (hp : Evaluates env k Expr.HasType p) (hq₀ : Evaluates env k₀ Operand.HasType q₀)
    (hq₁ : Evaluates env k₁ Operand.HasType q₁) :
    Evaluates env (.smoothstep k k₀ k₁) Expr.HasType
      (p.bind fun x => q₀.bind fun y₀ => q₁.bind fun y₁ => .op (.smoothstep x y₀ y₁)) := by
  intro m b hw
  have hfault : (Node.smoothstep k k₀ k₁).fault env =
      (k.typeOf env).bind fun t => (k₀.typeOf env).bind fun s₀ => (k₁.typeOf env).bind fun s₁ =>
        (Node.misfit "smoothstep" t s₀).or (Node.misfit "smoothstep" t s₁) := rfl
  have htype : (Node.smoothstep k k₀ k₁).typeOf env =
      (k.typeOf env).bind fun t => (k₀.typeOf env).bind fun s₀ => (k₁.typeOf env).bind fun s₁ =>
        if s₀.IsBeside t ∧ s₁.IsBeside t then some t else none := rfl
  have hpost : (Node.smoothstep k k₀ k₁).postorder =
      k.postorder ++ k₀.postorder ++ k₁.postorder ++ [.smoothstep k k₀ k₁] := rfl
  refine hp.first (k₀.postorder ++ k₁.postorder ++ [.smoothstep k k₀ k₁]) hw (by simp [hpost])
    (fun hk => by simp [htype, hk]) ?_
  rintro _ x ops hk rfl hwalked
  rw [hk, Option.bind_some] at hfault htype
  refine hq₀.next (k₁.postorder ++ [.smoothstep k k₀ k₁]) hw hwalked (by simp [hpost])
    (fun hk₀ => by simp [htype, hk₀]) ?_
  intro s₀ y₀ ops₀ hk₀ hy₀ hwalked₀
  rw [hk₀, Option.bind_some] at hfault htype
  refine hq₁.next [.smoothstep k k₀ k₁] hw hwalked₀ hpost (fun hk₁ => by simp [htype, hk₁]) ?_
  intro s₁ y₁ ops₁ hk₁ hy₁ hwalked₁
  rw [hk₁, Option.bind_some] at hfault htype
  rw [hpost]
  refine followsTypes_perform hw hwalked₁ rfl rfl hfault ?_ rfl ?_ m
  · rw [htype]
    by_cases hs₀ : s₀.IsBeside x.ty <;> by_cases hs₁ : s₁.IsBeside x.ty <;>
      simp [Node.misfit, hs₀, hs₁, Operation.value]
  · rw [← raise_or, Operation.check, Operand.checkBeside_of_hasType hy₀,
      Operand.checkBeside_of_hasType hy₁]

/-- The types of the uniforms, the first declaration of a name counting. -/
def typesOf (uniforms : List Var) (name : String) : Option Ty :=
  (uniforms.find? (·.name = name)).map (·.ty)

/-- **Every node follows the types.** -/
theorem evaluates_node (f : Fragment) (n : Node) :
    Evaluates (typesOf f.uniforms) n Expr.HasType (n.program f : Program σ Expr) := by
  induction n with
  | coord =>
    have hx : f.coord.HasType .vec2 := rfl
    exact fun m b _ => followsTypes_leaf hx rfl rfl rfl rfl m b
  | literal v =>
    have hx : (Expr.float v).HasType .float := rfl
    exact fun m b _ => followsTypes_leaf hx rfl rfl rfl rfl m b
  | vec2 x y =>
    have hx : (Expr.vec2 x y).HasType .vec2 := rfl
    exact fun m b _ => followsTypes_leaf hx rfl rfl rfl rfl m b
  | uniform name =>
    intro m b hw
    unfold Node.program Fragment.uniform
    cases hv : f.uniforms.find? (·.name = name) with
    | some v =>
      have ht : typesOf f.uniforms name = some v.ty := by simp [typesOf, hv]
      have hx : v.expr.HasType v.ty := rfl
      refine followsTypes_leaf hx rfl rfl ?_ ?_ m b
      · exact ht
      · simp [Node.fault, ht]
    | none =>
      have ht : typesOf f.uniforms name = none := by simp [typesOf, hv]
      exact .inr ⟨_, b, ht, rfl, by simp [Node.postorder, Node.fault, ht]⟩
  | arithmetic op lhs rhs ihl ihr =>
    exact evaluates_two ihl ihr.operand (.arithmetic op) op.name rfl rfl
      (fun _ _ => by simp [Node.isDoneBy]) rfl rfl (fun _ _ => rfl) fun _ _ => rfl
  | step arg edge iha ihe =>
    exact evaluates_two iha ihe.operand .step "step" rfl rfl (fun _ _ => rfl) rfl rfl
      (fun _ _ => rfl) fun _ _ => rfl
  | intrinsic fn arg ih =>
    refine evaluates_one ih (.intrinsic fn)
      (fun t => if t ∈ fn.domain then none else some (mismatch fn.name fn.accepted t)) id rfl rfl
      (fun _ => by simp [Node.isDoneBy]) rfl ?_ (fun _ => rfl) fun x => ?_
    · simp [Node.typeOf, Option.bind_eq_bind]
    · simp only [Operation.check, fn.takes_iff]
      split <;> rfl
  | channel c arg ih =>
    refine evaluates_one ih (.channel c)
      (fun t => if t ∈ c.vectors then none else some (mismatch ("." ++ c.name) c.accepted t))
      (fun _ => .float) rfl rfl (fun _ => by simp [Node.isDoneBy]) rfl ?_ (fun _ => rfl) fun x => ?_
    · simp [Node.typeOf, Option.bind_eq_bind]
    · simp only [Operation.check, c.isIn_iff]
      split <;> rfl
  | smoothstep arg edge₀ edge₁ iha ih₀ ih₁ =>
    exact evaluates_smoothstep iha ih₀.operand ih₁.operand

end Evaluates

/-! ## Graphs -/

/-- No name is declared with two types. -/
def ConflictFree (uniforms : List Var) : Prop :=
  ∀ v ∈ uniforms, ∀ w ∈ uniforms, v.name = w.name → v.ty = w.ty

namespace Builder

/-- Uniforms without a conflict are collected, and a reference finds what it would find in the list
asked for. -/
theorem collectUniforms_of_conflictFree {wanted : List Var} (h : ConflictFree wanted) :
    ∃ uniforms, collectUniforms wanted = .ok uniforms ∧ typesOf uniforms = typesOf wanted := by
  suffices hfold : ∀ declared, ConflictFree (declared ++ wanted) →
      ∃ uniforms, wanted.foldlM addUniform declared = .ok uniforms ∧
        typesOf uniforms = typesOf (declared ++ wanted) from hfold [] h
  clear h
  induction wanted with
  | nil => exact fun declared _ => ⟨declared, rfl, by rw [List.append_nil]⟩
  | cons v wanted ih =>
    intro declared hfree
    rw [List.foldlM_cons]
    cases hfind : declared.find? (·.name = v.name) with
    | none =>
      have hadd : addUniform declared v = .ok (declared ++ [v]) := by simp [addUniform, hfind]
      rw [hadd, List.append_cons declared v wanted]
      exact ih _ (List.append_cons declared v wanted ▸ hfree)
    | some earlier =>
      -- the name is found in what is declared already, so the repetition is never seen
      have hname : earlier.name = v.name := by simpa using List.find?_some hfind
      have hty : earlier.ty = v.ty :=
        hfree _ (by simp [List.mem_of_find?_eq_some hfind]) _ (by simp) hname
      have hadd : addUniform declared v = .ok declared := by simp [addUniform, hfind, hty]
      have hsub : declared ++ wanted ⊆ declared ++ v :: wanted :=
        ((List.sublist_cons_self v wanted).append_left declared).subset
      obtain ⟨uniforms, hok, htypes⟩ := ih declared fun x hx y hy => hfree x (hsub hx) y (hsub hy)
      refine ⟨uniforms, by rw [hadd]; exact hok, htypes.trans (funext fun name => ?_)⟩
      by_cases hn : v.name = name
      · subst hn
        simp [typesOf, List.find?_append, hfind]
      · simp [typesOf, List.find?_append, hn]

/-- The lines of operations, the first temporary having the given number. -/
def declarations (start : Nat) (ops : List Operation) : List Line :=
  ops.mapIdx fun k op => .declare (start + k) op

theorem lines_declaredAll {b : Builder} (hw : b.isWriting = true) (ops : List Operation) :
    (b.declaredAll ops).lines = b.lines ++ declarations b.next ops := by
  induction ops generalizing b with
  | nil => simp [declaredAll, declarations]
  | cons op ops ih =>
    have hlines : (b.declared op).lines = b.lines ++ [.declare b.next op] :=
      lines_written (b := { b with next := b.next + 1 }) hw (.declare b.next op)
    have hnext : (b.declared op).next = b.next + 1 := rfl
    have hrest : b.declaredAll (op :: ops) = (b.declared op).declaredAll ops := rfl
    rw [hrest, ih (isWriting_declared hw op), hlines, hnext]
    simp [declarations, Nat.add_assoc, Nat.add_comm 1]

theorem depth_declaredAll (b : Builder) (ops : List Operation) :
    (b.declaredAll ops).depth = b.depth := by
  induction ops generalizing b with
  | nil => rfl
  | cons op ops ih => exact (ih _).trans (depth_written _ _)

end Builder

/-- **The types of a graph decide its build.** It succeeds exactly if the main node has a type. Then
the main block has one declaration for every operation, in the order of evaluation, with the type of
the operation and the next number, and then the line of the colour. If the main node has no type, the
build fails for the first node that is wrong in itself. -/
theorem graph_typing {g : Graph} (hg : ConflictFree g.uniforms) {b : Builder}
    (hb : b.building = false) (m : σ) :
    ((∃ out b', (g.program : Program σ Output).run m b = (.done out, m, b')) ↔
      ∃ t, g.main.typeOf (typesOf g.uniforms) = some t) ∧
    (∀ t, g.main.typeOf (typesOf g.uniforms) = some t →
      ∃ out b' ops e, (g.program : Program σ Output).run m b = (.done out, m, b') ∧
        out.main = Builder.declarations (b.policy.start b.next) ops ++ [.color e] ∧ e.ty = t ∧
        List.Forall₂ (Node.Becomes (typesOf g.uniforms)) g.main.operations ops) ∧
    (g.main.typeOf (typesOf g.uniforms) = none →
      ∃ f b', (g.program : Program σ Output).run m b = (.failed f, m, b') ∧
        g.main.postorder.findSome? (Node.fault (typesOf g.uniforms)) = some f) := by
  obtain ⟨uniforms, hu, htypes⟩ := Builder.collectUniforms_of_conflictFree hg
  have hrun : (g.program : Program σ Output).run m b =
      Outcome.andThen (Outcome.settle ((g.main.program ⟨uniforms⟩).run m (b.begun uniforms)))
        fun r m b => (Program.ofExcept r).run m b := by
    rw [Graph.program, Program.shader, Program.run_build, Program.run_build_of_not_building hb, hu]
  have hw : (b.begun uniforms).isWriting = true := rfl
  have hmain := evaluates_node (σ := σ) ⟨uniforms⟩ g.main m (b.begun uniforms) hw
  rw [show typesOf (Fragment.mk uniforms).uniforms = typesOf g.uniforms from htypes] at hmain
  obtain ⟨t, e, ops, ht, hdone, he, hwalked⟩ | ⟨f, b', ht, hfailed, hf⟩ := hmain
  · have hcomplete := Builder.complete_of_isWriting (Builder.isWriting_declaredAll hw ops) e
    have hdepth : (b.begun uniforms).depth = 1 := rfl
    rw [Builder.depth_declaredAll, if_pos hdepth, Builder.lines_declaredAll hw] at hcomplete
    rw [hdone, Outcome.settle, hcomplete] at hrun
    refine ⟨⟨fun _ => ⟨t, ht⟩, fun _ => ⟨_, _, hrun⟩⟩, ?_, fun hnone => by simp [ht] at hnone⟩
    intro t' ht'
    obtain rfl : t = t' := by simpa [ht] using ht'
    exact ⟨_, _, ops, e, hrun, rfl, he, hwalked.becomes⟩
  · rw [hfailed] at hrun
    refine ⟨⟨?_, ?_⟩, fun t' ht' => by simp [ht] at ht', fun _ => ⟨f, _, hrun, hf⟩⟩
    · rintro ⟨out, b₁, hok⟩
      rw [hrun] at hok
      cases hok
    · rintro ⟨t', ht'⟩
      simp [ht] at ht'

/-- A graph with a type, on a builder that has given out three numbers, and two graphs without one:
an operand that is wrong in itself counts before the step that would not take the edge beside it. -/
theorem graph_typing_wave :
    let uniforms : List Var := [⟨"t", .float⟩, ⟨"m", .mat4⟩, ⟨"t", .float⟩]
    let b : Builder := { Builder.new .persistent with next := 3 }
    let run (n : Node) := ((⟨uniforms, n⟩ : Graph).program : Program Unit Output).run () b
    (∃ out b' ops e,
      run (.arithmetic .mul (.intrinsic .sin (.uniform "t")) (.literal (.ofNat 2))) =
        (.done out, (), b') ∧
      out.main = Builder.declarations 3 ops ++ [.color e] ∧ e.ty = .float ∧
      List.Forall₂ (Node.Becomes (typesOf uniforms))
        [.intrinsic .sin (.uniform "t"),
          .arithmetic .mul (.intrinsic .sin (.uniform "t")) (.literal (.ofNat 2))] ops) ∧
    (∃ b', run (.smoothstep .coord (.uniform "m") (.uniform "t")) =
      (.failed (mismatch "smoothstep" "float or vec2" .mat4), (), b')) ∧
    ∃ b', run (.smoothstep .coord (.uniform "m") (.uniform "s")) =
      (.failed ⟨.unknownUniform "s", none⟩, (), b') := by
  intro uniforms b run
  have hfree : ConflictFree uniforms := by simp [ConflictFree, uniforms]
  refine ⟨(graph_typing hfree (b := b) rfl ()).2.1 .float rfl, ?_, ?_⟩
  · obtain ⟨f, b', hrun, hf⟩ := (graph_typing (g := ⟨uniforms,
      .smoothstep .coord (.uniform "m") (.uniform "t")⟩) hfree (b := b) rfl ()).2.2 rfl
    cases hf
    exact ⟨b', hrun⟩
  · obtain ⟨f, b', hrun, hf⟩ := (graph_typing (g := ⟨uniforms,
      .smoothstep .coord (.uniform "m") (.uniform "s")⟩) hfree (b := b) rfl ()).2.2 rfl
    cases hf
    exact ⟨b', hrun⟩

end Shader
