import Shader.Graph
import Shader.Proofs.Reading

/-!
# The value of a graph and of its lines

An interpretation gives any meaning to operators, functions, numbers and uniforms. Under it a node
has a value, by recursion on the tree, and so have the lines of a shader: each of them binds a name
to the value of its right side.

* `Interpretation`: a meaning; `Interpretation.node`: the value of a node;
* `Interpretation.execute`: execute declarations; `Interpretation.color?`: the value of the colour,
  from the lines as text;
* `Block`: declarations of one temporary after the other, of atoms that are known;
* **`Block.atom_eq`**: executing a block changes nothing that was known before.
-/

universe u

namespace Shader

/-- A meaning for what stands in lines. Nothing is asked of it. -/
structure Interpretation (V : Type u) where
  arithmetic : Arithmetic → V → V → V
  intrinsic : Intrinsic → V → V
  step : V → V → V → V
  smoothstep : V → V → V → V
  channel : Channel → V → V
  vec2 : V → V → V
  /-- The value of a number as it is printed. -/
  number : String → V
  coord : V
  uniform : String → V

namespace Interpretation

variable {V : Type u} (I : Interpretation V)

/-- The value of a node. A step has its argument twice. -/
def node : Node → V
  | .coord => I.coord
  | .uniform name => I.uniform name
  | .literal v => I.number (literal v)
  | .vec2 x y => I.vec2 (I.number (literal x)) (I.number (literal (y.getD x)))
  | .arithmetic op lhs rhs => I.arithmetic op (node lhs) (node rhs)
  | .intrinsic fn arg => I.intrinsic fn (node arg)
  | .step arg edge => I.step (node arg) (node edge) (node arg)
  | .smoothstep arg edge₀ edge₁ => I.smoothstep (node arg) (node edge₀) (node edge₁)
  | .channel c arg => I.channel c (node arg)

/-- The value of an atom; a name has one if it is bound. -/
def atom (env : List (String × V)) : Atom → Option V
  | .name n => env.lookup n
  | .number t => some (I.number t)
  | .pair x y => some (I.vec2 (I.number x) (I.number y))
  | .coord => some I.coord

/-- The value of a right side. -/
def right (env : List (String × V)) : RightSide → Option V
  | .arithmetic op a b => return I.arithmetic op (← I.atom env a) (← I.atom env b)
  | .intrinsic fn a => return I.intrinsic fn (← I.atom env a)
  | .step a b c => return I.step (← I.atom env a) (← I.atom env b) (← I.atom env c)
  | .smoothstep a b c => return I.smoothstep (← I.atom env a) (← I.atom env b) (← I.atom env c)
  | .channel c a => return I.channel c (← I.atom env a)

/-- Execute declarations in order, each of which binds a name. The last binding of a name counts. -/
def execute : List Statement → List (String × V) → Option (List (String × V))
  | [], env => some env
  | s :: ss, env => do
    let v ← I.right env s.right
    execute ss ((s.name, v) :: env)

/-- The value of the first argument of the colour, from the text of the lines. Before the first line
the uniforms are bound. -/
def color? (uniforms : List Var) (lines : List String) : Option V :=
  (readMain? lines).bind fun (ss, a) =>
    (I.execute ss (uniforms.map fun v => (v.name, I.uniform v.name))).bind fun env => I.atom env a

/-- The uniforms have their values. -/
def Binds (uniforms : List Var) (env : List (String × V)) : Prop :=
  ∀ v ∈ uniforms, env.lookup v.name = some (I.uniform v.name)

theorem binds_initial (uniforms : List Var) :
    I.Binds uniforms (uniforms.map fun v => (v.name, I.uniform v.name)) := by
  intro v hv
  induction uniforms with
  | nil => cases hv
  | cons w ws ih =>
    by_cases hw : v.name = w.name
    · simp [hw]
    · obtain rfl | hv := List.mem_cons.1 hv
      · exact absurd rfl hw
      · have hne : (v.name == w.name) = false := by simpa using hw
        rw [List.map_cons, List.lookup_cons, hne]
        exact ih hv

theorem execute_append (ss ts : List Statement) (env : List (String × V)) :
    I.execute (ss ++ ts) env = (I.execute ss env).bind (I.execute ts) := by
  induction ss generalizing env with
  | nil => rfl
  | cons s ss ih =>
    cases hv : I.right env s.right with
    | none => simp [execute, hv]
    | some v => simp [execute, hv, ih]

end Interpretation

/-! ## What is known at a line -/

/-- Whether all numbers of a node are finite. -/
def Node.isFinite : Node → Bool
  | coord | uniform _ => true
  | literal v => v.isFinite
  | vec2 x y => x.isFinite && y.all Binary64.isFinite
  | arithmetic _ a b | step a b => isFinite a && isFinite b
  | intrinsic _ a | channel _ a => isFinite a
  | smoothstep a b c => isFinite a && isFinite b && isFinite c

/-- A uniform may be named by every identifier that is not the name of a temporary. -/
def Var.IsNameable (v : Var) : Prop := isIdentifier v.name = true ∧ ∀ n, v.name ≠ tempName n

/-- An atom that may stand in a line: a temporary declared before, from the number `first` on and
below `next`, a declared uniform, a finite number, a pair of these, or the screen coordinate. -/
def Atom.IsKnown (uniforms : List Var) (first next : Nat) : Atom → Prop
  | name x => (∃ k, first ≤ k ∧ k < next ∧ x = tempName k) ∨ ∃ v ∈ uniforms, x = v.name
  | number t => ∃ v : Binary64, v.isFinite = true ∧ t = literal v
  | pair x y => ∃ v w : Binary64, v.isFinite = true ∧ w.isFinite = true ∧
      x = literal v ∧ y = literal w
  | coord => True

section Known

variable {uniforms : List Var} {first next next' : Nat} {a : Atom}

theorem Atom.IsKnown.mono (ha : a.IsKnown uniforms first next) (h : next ≤ next') :
    a.IsKnown uniforms first next' := by
  cases a with
  | name x =>
    refine ha.imp_left ?_
    rintro ⟨k, hle, hlt, rfl⟩
    exact ⟨k, hle, Nat.lt_of_lt_of_le hlt h, rfl⟩
  | number t => exact ha
  | pair x y => exact ha
  | coord => trivial

theorem isWord_of_isFinite {v : Binary64} (hv : v.isFinite = true) :
    IsWord (literal v).toList ∧ isNumeral (literal v).toList = true := by
  cases v with
  | finite negative m => exact isWord_literal negative m
  | _ => cases hv

theorem Atom.IsKnown.isReadable (ha : a.IsKnown uniforms first next)
    (hu : ∀ v ∈ uniforms, v.IsNameable) : a.IsReadable := by
  cases a with
  | name x =>
    obtain ⟨k, -, -, rfl⟩ | ⟨v, hv, rfl⟩ := ha
    · exact isIdentifier_tempName k
    · exact (hu v hv).1
  | number t =>
    obtain ⟨v, hv, rfl⟩ := ha
    exact isWord_of_isFinite hv
  | pair x y =>
    obtain ⟨v, w, hv, hw, rfl, rfl⟩ := ha
    exact ⟨isWord_of_isFinite hv, isWord_of_isFinite hw⟩
  | coord => trivial

end Known

/-! ## Blocks of declarations -/

/-- Declarations of the temporaries from `n` on, up to the number behind the last. The atoms of each
are known at its place. -/
inductive Block (uniforms : List Var) (first : Nat) : Nat → List Statement → Nat → Prop
  | nil {n : Nat} : Block uniforms first n [] n
  | cons {n n' : Nat} {s : Statement} {ss : List Statement} (hname : s.name = tempName n)
    (hatoms : ∀ a ∈ s.right.atoms, a.IsKnown uniforms first n)
    (hss : Block uniforms first (n + 1) ss n') : Block uniforms first n (s :: ss) n'

namespace Block

variable {uniforms : List Var} {first n n' n'' : Nat} {ss ts : List Statement}

theorem append (h : Block uniforms first n ss n') (h' : Block uniforms first n' ts n'') :
    Block uniforms first n (ss ++ ts) n'' := by
  induction h with
  | nil => exact h'
  | cons hname hatoms _ ih => exact .cons hname hatoms (ih h')

theorem length_eq (h : Block uniforms first n ss n') : n' = n + ss.length := by
  induction h with
  | nil => rfl
  | cons _ _ _ ih => simp only [List.length_cons]; omega

theorem le (h : Block uniforms first n ss n') : n ≤ n' := by
  have := h.length_eq
  omega

/-- The declaration at a place. -/
theorem getElem (h : Block uniforms first n ss n') (i : Nat) (hi : i < ss.length) :
    ss[i].name = tempName (n + i) ∧ ∀ a ∈ ss[i].right.atoms, a.IsKnown uniforms first (n + i) := by
  induction h generalizing i with
  | nil => exact absurd hi (by simp)
  | @cons n n' s ss hname hatoms _ ih =>
    cases i with
    | zero => exact ⟨hname, hatoms⟩
    | succ i =>
      have hi' : i < ss.length := by simpa using hi
      have := ih i hi'
      rwa [show n + 1 + i = n + (i + 1) by omega] at this

theorem isReadable (h : Block uniforms first n ss n') (hu : ∀ v ∈ uniforms, v.IsNameable) :
    ∀ s ∈ ss, s.IsReadable := by
  induction h with
  | nil => simp
  | @cons n n' s ss hname hatoms _ ih =>
    intro t ht
    obtain rfl | ht := List.mem_cons.1 ht
    · exact ⟨hname ▸ isIdentifier_tempName n, fun a ha => (hatoms a ha).isReadable hu⟩
    · exact ih t ht

variable {V : Type u} {I : Interpretation V} {env env' : List (String × V)}

/-- A name that the block does not declare keeps its value. -/
theorem lookup_eq (h : Block uniforms first n ss n') (he : I.execute ss env = some env')
    {x : String} (hx : ∀ k, n ≤ k → x ≠ tempName k) : env'.lookup x = env.lookup x := by
  induction h generalizing env with
  | nil => rw [Option.some.inj he]
  | @cons n n' s ss hname _ _ ih =>
    simp only [Interpretation.execute, Option.bind_eq_bind] at he
    obtain ⟨v, -, he⟩ := Option.bind_eq_some_iff.1 he
    have hne : (x == s.name) = false := by
      rw [hname]
      simpa using hx n (Nat.le_refl n)
    rw [ih he fun k hk => hx k (Nat.le_of_succ_le hk), List.lookup_cons, hne]

/-- **What is known before a block has the same value after it.** -/
theorem atom_eq (h : Block uniforms first n ss n') (he : I.execute ss env = some env')
    (hu : ∀ v ∈ uniforms, v.IsNameable) {a : Atom} (ha : a.IsKnown uniforms first n) :
    I.atom env' a = I.atom env a := by
  cases a with
  | name x =>
    refine h.lookup_eq he fun k hk => ?_
    obtain ⟨j, -, hj, rfl⟩ | ⟨v, hv, rfl⟩ := ha
    · intro hname
      have := tempName_injective hname
      omega
    · exact (hu v hv).2 k
  | _ => rfl

theorem binds (h : Block uniforms first n ss n') (he : I.execute ss env = some env')
    (hu : ∀ v ∈ uniforms, v.IsNameable) (hb : I.Binds uniforms env) : I.Binds uniforms env' :=
  fun v hv => (h.lookup_eq he fun k _ => (hu v hv).2 k).trans (hb v hv)

end Block

end Shader
