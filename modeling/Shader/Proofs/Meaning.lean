import Shader.Proofs.Calls

/-!
# What a program means

A program has a meaning without scopes. A body is given the number of the next temporary and how
deeply it is nested; what it means is its outcome, its own lines, the functions finished meanwhile
and the number to go on with. The meaning of an operation is put together from the meanings of its
bodies, which are meant to be independent of where the body is written.

* `Effect`: what a program or an operation means; `Effect.goOn`: an operation, then its continuation;
* `Effect.performed`, `Effect.emitted`, `Effect.defined`, `Effect.conditional`,
  `Effect.alternative`, `Effect.built`: one for each kind of operation;
* **`Program.meaning`**: the meaning of a program;
* `Program.AbortFree`: the programs that are not abandoned.
-/

namespace Shader

variable {σ α β : Type}

/-- What a program means. -/
structure Effect (σ α : Type) where
  outcome : Except Failure α
  memory : σ
  /-- The lines of its own body. -/
  lines : List Line
  /-- The functions finished meanwhile. -/
  functions : List Definition
  /-- The number of the next temporary. -/
  next : Nat

namespace Effect

/-- An operation that does nothing but fail. -/
def refused (f : Failure) (m : σ) (next : Nat) : Effect σ α := ⟨.error f, m, [], [], next⟩

/-- Go on with the answer of an operation, after the lines seen so far and its own. -/
def goOn (c : Effect σ β) (seen : List Line)
    (k : Except Failure β → List Line → σ → Nat → Effect σ α) : Effect σ α :=
  let r := k c.outcome (seen ++ c.lines) c.memory c.next
  { r with lines := c.lines ++ r.lines, functions := c.functions ++ r.functions }

/-! ## Operations

The level is `0` outside of a build, `1` in the main body, and one more in every function. -/

/-- An operation on expressions adds the line of the next temporary. -/
def performed (op : Operation) (level : Nat) (m : σ) (next : Nat) : Effect σ Expr :=
  match op.check with
  | .error f => refused f m next
  | .ok () =>
    if level = 0 then refused (.ofMisuse (.outsideBuild "assign")) m next
    else ⟨.ok ⟨tempName next, op.value.ty⟩, m, [.declare next op], [], next + 1⟩

/-- A line is added. -/
def emitted (text : String) (level : Nat) (m : σ) (next : Nat) : Effect σ Unit :=
  if level = 0 then refused (.ofMisuse (.outsideBuild "emit")) m next
  else ⟨.ok (), m, [.raw text], [], next⟩

/-- The value a body returns has to be of the type its function declares. -/
def returned (s : Signature) (outcome : Except Failure Expr) : Except Failure Expr :=
  outcome.bind fun value =>
    if value.ty = s.result then .ok value
    else .error (mismatch ("return of " ++ s.name) s.result.keyword value.ty)

/-- A definition adds no line. It adds the functions finished in its body and then, unless it fails,
its own: the lines of the body and the result. At the last level it is refused. -/
def defined (s : Signature) (level : Nat) (m : σ) (next : Nat) (body : Effect σ Expr) :
    Effect σ Callee :=
  if level = 0 then refused (.ofMisuse (.outsideBuild "define_function")) m next
  else if maxDepth ≤ level then refused (.ofMisuse (.tooDeep maxDepth)) m next
  else
    match returned s body.outcome with
    | .ok value => ⟨.ok s.callee, body.memory, [],
        body.functions ++ [⟨s, body.lines ++ [.result value]⟩], body.next⟩
    | .error f => ⟨.error (f.inScope s.name), body.memory, [], body.functions, body.next⟩

/-- A conditional adds its head, the lines of its branch and its end, or no line if it fails. -/
def conditional (cond : String) (level : Nat) (m : σ) (next : Nat) (body : Effect σ Unit) :
    Effect σ Unit :=
  if level = 0 then refused (.ofMisuse (.outsideBuild "if_block")) m next
  else
    match body.outcome with
    | .ok () => { body with lines := .opening cond :: body.lines ++ [.closing] }
    | .error _ => { body with lines := [] }

/-- The lines of a first branch and of the head of the second. -/
def firstBranch (cond : String) (body : Effect σ Unit) : List Line :=
  .opening cond :: body.lines ++ [.closing, .otherwise]

/-- A conditional with an alternative adds the lines of both, or no line if one of them fails. The
second branch counts only if the first has ended well. -/
def alternative (cond : String) (level : Nat) (m : σ) (next : Nat) (body other : Effect σ Unit) :
    Effect σ Unit :=
  if level = 0 then refused (.ofMisuse (.outsideBuild "if_else")) m next
  else
    match body.outcome with
    | .error _ => { body with lines := [] }
    | .ok () =>
      let functions := body.functions ++ other.functions
      match other.outcome with
      | .ok () =>
        { other with lines := firstBranch cond body ++ other.lines ++ [.closing], functions }
      | .error _ => { other with lines := [], functions }

/-- The shader that a main body makes. -/
def output (uniforms : List Var) (main : Effect σ Expr) : Except Failure Output :=
  main.outcome.map fun value => ⟨uniforms, main.functions, main.lines ++ [.color value]⟩

/-- A build inside a build is refused. A build outside of one answers with the shader that its main
body makes; the caller gets no lines and no functions. -/
def built (wanted : List Var) (level : Nat) (m : σ) (next start : Nat)
    (main : List Var → Effect σ Expr) : Effect σ Output :=
  if level = 0 then
    match Builder.collectUniforms wanted with
    | .error f => refused f m start
    | .ok uniforms =>
      ⟨output uniforms (main uniforms), (main uniforms).memory, [], [], (main uniforms).next⟩
  else refused (.ofMisuse .nestedBuild) m next

end Effect

/-- How a program ends that is not abandoned. -/
def Outcome.ofExcept : Except Failure α → Outcome α
  | .ok a => .done a
  | .error f => .failed f

namespace Program

/-- **The meaning of a program** at a level, behind the lines that its body has so far. -/
def meaning (policy : CounterPolicy) :
    {α : Type} → Program σ α → Nat → List Line → σ → Nat → Effect σ α
  | _, .pure a, _, _, m, n => ⟨.ok a, m, [], [], n⟩
  | _, .fail f, _, _, m, n => .refused f m n
  | _, .abort, _, _, m, n => .refused (.ofMisuse .abandoned) m n
  | _, .own act k, l, seen, m, n => (k (act m).1).meaning policy l seen (act m).2 n
  | _, .look k, l, seen, m, n => (k ⟨l, seen, l ≠ 0⟩).meaning policy l seen m n
  | _, .perform op k, l, seen, m, n =>
    (Effect.performed op l m n).goOn seen fun r seen m n => (k r).meaning policy l seen m n
  | _, .emit text k, l, seen, m, n =>
    (Effect.emitted text l m n).goOn seen fun r seen m n => (k r).meaning policy l seen m n
  | _, .define s body k, l, seen, m, n =>
    (Effect.defined s l m n
      ((body (s.params.map (·.expr))).meaning policy (l + 1) [] m n)).goOn seen
        fun r seen m n => (k r).meaning policy l seen m n
  | _, .when cond body k, l, seen, m, n =>
    (Effect.conditional cond l m n
      (body.meaning policy l (seen ++ [.opening cond]) m n)).goOn seen
        fun r seen m n => (k r).meaning policy l seen m n
  | _, .choose cond body other k, l, seen, m, n =>
    let first := body.meaning policy l (seen ++ [.opening cond]) m n
    (Effect.alternative cond l m n first
      (other.meaning policy l (seen ++ first.firstBranch cond) first.memory first.next)).goOn seen
        fun r seen m n => (k r).meaning policy l seen m n
  | _, .build wanted main k, l, seen, m, n =>
    (Effect.built wanted l m n (policy.start n) fun uniforms =>
      (main ⟨uniforms⟩).meaning policy 1 [] m (policy.start n)).goOn seen
        fun r seen m n => (k r).meaning policy l seen m n
  | _, .fresh policy' body k, l, seen, m, n =>
    -- another builder, so only the memory and the answer come back
    let r := body.meaning policy' 0 [] m 0
    (k r.outcome).meaning policy l seen r.memory n
  | _, .contain body k, l, seen, m, n =>
    (body.meaning policy l seen m n).goOn seen
      fun r seen m n => (k (.ofExcept r)).meaning policy l seen m n

/-- Nothing that the program can come to is abandoned. -/
def AbortFree : {α : Type} → Program σ α → Prop
  | _, .pure _ | _, .fail _ => True
  | _, .abort => False
  | _, .own _ k => ∀ x, (k x).AbortFree
  | _, .look k => ∀ v, (k v).AbortFree
  | _, .perform _ k => ∀ r, (k r).AbortFree
  | _, .emit _ k => ∀ r, (k r).AbortFree
  | _, .define _ body k => (∀ args, (body args).AbortFree) ∧ ∀ r, (k r).AbortFree
  | _, .when _ body k => body.AbortFree ∧ ∀ r, (k r).AbortFree
  | _, .choose _ body other k => body.AbortFree ∧ other.AbortFree ∧ ∀ r, (k r).AbortFree
  | _, .build _ main k => (∀ f, (main f).AbortFree) ∧ ∀ r, (k r).AbortFree
  | _, .fresh _ body k => body.AbortFree ∧ ∀ r, (k r).AbortFree
  | _, .contain body k => body.AbortFree ∧ ∀ r, (k r).AbortFree

end Program

end Shader
