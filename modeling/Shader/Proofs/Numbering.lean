import Shader.Proofs.Steps
import Shader.Proofs.Words

/-!
# Temporaries are never named twice

The number of the next temporary only grows while a build runs, and goes back to `0` at the start
of a build if the builder counts from there. So a number once given is not given again, whatever was
dropped in between.

* `temps`, `Output.temps`: the temporaries that lines declare;
* `Counts`: the numbers that a journal reports are given one after the other;
* `Numbered`, `Builder.InOrder`: what the lines of a builder have to do with its number;
* **`temps_never_reused`**: the numbers given in a run, and those in a finished shader.
-/

namespace Shader

open Relation

variable {σ α β : Type}

/-- The temporaries that lines declare, in order. -/
def temps (ls : List Line) : List Nat := ls.filterMap Line.temp?

/-- The temporaries that a shader declares, those of the functions first. -/
def Output.temps (o : Output) : List Nat :=
  o.functions.flatMap (fun d => Shader.temps d.lines) ++ Shader.temps o.main

@[simp] theorem temps_nil : temps [] = [] := rfl

@[simp] theorem temps_append (ls ls' : List Line) : temps (ls ++ ls') = temps ls ++ temps ls' :=
  List.filterMap_append

theorem temps_singleton_of_none {line : Line} (h : line.temp? = none) : temps [line] = [] := by
  simp [temps, h]

@[simp] theorem temps_singleton_declare (n : Nat) (op : Operation) :
    temps [.declare n op] = [n] := rfl

/-! ## The numbers that are given -/

/-- The temporary whose declaration an event reports. -/
def Event.temp? : Event → Option Nat
  | emitted _ line => line.temp?
  | _ => none

/-- Whether an event bears on the number of the next temporary. -/
def Event.bearsOnNumber : Event → Bool
  | buildStarted _ => true
  | e => e.temp?.isSome

/-- From the number `n` the events, the latest first, lead to the next number `k`: a temporary gets
the next number, the start of a build sets it as the policy says, and nothing else changes it. -/
inductive Counts (policy : CounterPolicy) (n : Nat) : List Event → Nat → Prop
  | nil : Counts policy n [] n
  | declare {es : List Event} {k depth : Nat} {op : Operation} (h : Counts policy n es k) :
    Counts policy n (.emitted depth (.declare k op) :: es) (k + 1)
  | start {es : List Event} {k : Nat} (h : Counts policy n es k) :
    Counts policy n (.buildStarted (policy.start k) :: es) (policy.start k)
  | other {es : List Event} {k : Nat} {e : Event} (h : Counts policy n es k)
    (he : e.bearsOnNumber = false) : Counts policy n (e :: es) k

theorem Counts.trans {policy : CounterPolicy} {n k l : Nat} {es es' : List Event}
    (h : Counts policy n es k) (h' : Counts policy k es' l) : Counts policy n (es' ++ es) l := by
  induction h' with
  | nil => exact h
  | declare _ ih => exact .declare ih
  | start _ ih => exact .start ih
  | other _ he ih => exact .other ih he

/-- Without a start of a build the numbers go up. -/
theorem Counts.le {policy : CounterPolicy} {n k : Nat} {es : List Event} (h : Counts policy n es k)
    (hp : policy = .persistent ∨ ∀ e ∈ es, e.isInner = true) : n ≤ k := by
  induction h with
  | nil => exact Nat.le_refl _
  | declare _ ih =>
    have := ih (hp.imp_right fun h e he => h e (List.mem_cons_of_mem _ he))
    omega
  | start _ ih =>
    obtain rfl | hp := hp
    · exact ih (.inl rfl)
    · exact absurd (hp _ List.mem_cons_self) (by simp [Event.isInner])
  | other _ _ ih => exact ih (hp.imp_right fun h e he => h e (List.mem_cons_of_mem _ he))

/-- **Inside a build the temporaries get one number after the other**, none left out. -/
theorem Counts.temps_eq {policy : CounterPolicy} {n k : Nat} {es : List Event}
    (h : Counts policy n es k) (hi : ∀ e ∈ es, e.isInner = true) :
    es.reverse.filterMap Event.temp? = List.range' n (k - n) := by
  induction h with
  | nil => simp
  | @declare es k depth op h ih =>
    have hi' : ∀ e ∈ es, e.isInner = true := fun e he => hi e (List.mem_cons_of_mem _ he)
    have hle := h.le (.inr hi')
    rw [List.reverse_cons, List.filterMap_append, ih hi', show k + 1 - n = k - n + 1 by omega,
      List.range'_concat]
    simp [Event.temp?, Line.temp?]
    omega
  | start => exact absurd (hi _ List.mem_cons_self) (by simp [Event.isInner])
  | @other es k e h he ih =>
    have ht : e.temp? = none := by
      cases e <;> simp_all [Event.bearsOnNumber]
    rw [List.reverse_cons, List.filterMap_append, ih fun e he => hi e (List.mem_cons_of_mem _ he)]
    simp [ht]

namespace Builder

theorem Step.counts {b b' : Builder} (h : b.Step b') :
    b'.policy = b.policy ∧
      ∃ new, b'.journal = new ++ b.journal ∧ Counts b.policy b.next new b'.next := by
  cases h with
  | @write line _ hl =>
    have : (Event.emitted b.depth line).bearsOnNumber = false := by
      simp [Event.bearsOnNumber, Event.temp?, hl]
    exact ⟨rfl, [_], rfl, .other .nil this⟩
  | declare => exact ⟨rfl, [_], rfl, .declare .nil⟩
  | enter => exact ⟨rfl, [], rfl, .nil⟩
  | keep => exact ⟨rfl, [_], rfl, .other .nil rfl⟩
  | drop => exact ⟨rfl, [], rfl, .nil⟩
  | start => exact ⟨rfl, [_], rfl, .start .nil⟩
  | @settle r =>
    refine ⟨rfl, [_], rfl, .other .nil ?_⟩
    cases r <;> rfl

/-- **Whatever happens to a builder, its numbers are given one after the other.** -/
theorem Reaches.counts {b b' : Builder} (h : b.Reaches b') :
    b'.policy = b.policy ∧
      ∃ new, b'.journal = new ++ b.journal ∧ Counts b.policy b.next new b'.next := by
  induction h with
  | refl => exact ⟨rfl, [], rfl, .nil⟩
  | tail _ hs ih =>
    obtain ⟨hp, new, hj, hc⟩ := ih
    obtain ⟨hp', new', hj', hc'⟩ := hs.counts
    rw [hp] at hp' hc'
    exact ⟨hp', new' ++ new, by rw [hj', hj, List.append_assoc], hc.trans hc'⟩

end Builder

/-! ## The numbers that lines declare -/

/-- The bodies declare each number once at most, from `lo` on and below `next`, and every body
declares its numbers in increasing order. -/
structure Numbered (lo next : Nat) (bodies : List (List Line)) : Prop where
  nodup : (bodies.flatMap temps).Nodup
  bounds : ∀ n ∈ bodies.flatMap temps, lo ≤ n ∧ n < next
  increasing : ∀ ls ∈ bodies, (temps ls).Pairwise (· < ·)

namespace Numbered

variable {lo next : Nat} {bodies bodies' front rest : List (List Line)} {ls : List Line}

theorem of_sublist (h : Numbered lo next bodies)
    (hs : (bodies'.flatMap temps).Sublist (bodies.flatMap temps))
    (hi : ∀ ls ∈ bodies', ∃ ls' ∈ bodies, (temps ls).Sublist (temps ls')) :
    Numbered lo next bodies' where
  nodup := h.nodup.sublist hs
  bounds n hn := h.bounds n (hs.subset hn)
  increasing ls hls := by
    obtain ⟨ls', hls', hsub⟩ := hi ls hls
    exact (h.increasing ls' hls').sublist hsub

theorem empty (lo next : Nat) : Numbered lo next [[]] := ⟨by simp, by simp, by simp⟩

/-- A line that declares nothing does not count. -/
theorem write (h : Numbered lo next (front ++ ls :: rest)) {line : Line}
    (hl : line.temp? = none) : Numbered lo next (front ++ (ls ++ [line]) :: rest) := by
  have ht : temps (ls ++ [line]) = temps ls := by
    rw [temps_append, temps_singleton_of_none hl, List.append_nil]
  refine h.of_sublist (by simp [ht]) fun ls' hls' => ?_
  simp only [List.mem_append, List.mem_cons] at hls' ⊢
  obtain hf | rfl | hr := hls'
  · exact ⟨ls', .inl hf, .refl _⟩
  · exact ⟨ls, .inr (.inl rfl), ht ▸ .refl _⟩
  · exact ⟨ls', .inr (.inr hr), .refl _⟩

/-- The next number may be declared in any body. -/
theorem declare (h : Numbered lo next (front ++ ls :: rest)) (hlo : lo ≤ next) (op : Operation) :
    Numbered lo (next + 1) (front ++ (ls ++ [.declare next op]) :: rest) := by
  have hperm : ((front ++ (ls ++ [.declare next op]) :: rest).flatMap temps).Perm
      (next :: (front ++ ls :: rest).flatMap temps) := by
    simp only [List.flatMap_append, List.flatMap_cons, temps_append, temps_singleton_declare,
      ← List.append_assoc]
    simpa using @List.perm_middle _ next (front.flatMap temps ++ temps ls) (rest.flatMap temps)
  have hnew : next ∉ (front ++ ls :: rest).flatMap temps := fun hn =>
    Nat.lt_irrefl _ (h.bounds next hn).2
  refine ⟨hperm.nodup_iff.2 (List.nodup_cons.2 ⟨hnew, h.nodup⟩), fun n hn => ?_, fun ls' hls' => ?_⟩
  · obtain rfl | hn := List.mem_cons.1 (hperm.mem_iff.1 hn)
    · exact ⟨hlo, Nat.lt_succ_self _⟩
    · have := h.bounds n hn
      omega
  · simp only [List.mem_append, List.mem_cons] at hls'
    obtain hf | rfl | hr := hls'
    · exact h.increasing ls' (by simp [hf])
    · rw [temps_append, temps_singleton_declare, List.pairwise_append]
      refine ⟨h.increasing ls (by simp), List.pairwise_singleton _ _, fun k hk n hn => ?_⟩
      rw [List.mem_singleton.1 hn]
      exact (h.bounds k (by simp [hk])).2
    · exact h.increasing ls' (by simp [hr])

/-- A body without lines counts for nothing. -/
theorem enter (h : Numbered lo next (front ++ rest)) : Numbered lo next (front ++ [] :: rest) where
  nodup := by simpa using h.nodup
  bounds := by simpa using h.bounds
  increasing ls hls := by
    obtain hf | rfl | hr : ls ∈ front ∨ ls = [] ∨ ls ∈ rest := by simpa using hls
    · exact h.increasing ls (List.mem_append_left _ hf)
    · exact .nil
    · exact h.increasing ls (List.mem_append_right _ hr)

/-- Bodies and lines may be left out. -/
theorem drop {above : List (List Line)} {more : List Line}
    (h : Numbered lo next (front ++ (above ++ (ls ++ more) :: rest))) :
    Numbered lo next (front ++ ls :: rest) := by
  refine h.of_sublist ?_ fun ls' hls' => ?_
  · simp only [List.flatMap_append, List.flatMap_cons, temps_append]
    refine (List.Sublist.refl _).append (.trans ?_ (List.sublist_append_right _ _))
    exact (List.sublist_append_left _ _).append (.refl _)
  · simp only [List.mem_append, List.mem_cons] at hls' ⊢
    obtain hf | rfl | hr := hls'
    · exact ⟨ls', .inl hf, .refl _⟩
    · exact ⟨ls' ++ more, .inr (.inr (.inl rfl)), temps_append ls' more ▸ List.sublist_append_left _ _⟩
    · exact ⟨ls', .inr (.inr (.inr hr)), .refl _⟩

end Numbered

namespace Builder

/-- The bodies that a builder holds: those of its functions and those that are open. -/
def bodies (b : Builder) : List (List Line) := b.functions.map (·.lines) ++ b.scopes

theorem bodies_settle (b : Builder) (r : Except Failure Output) :
    (b.settle r).bodies = b.functions.map (·.lines) := by
  cases r <;> simp [bodies, settle, report]

/-- The numbers of a builder are in order from `lo` on; `lo` is `0` if builds start from there. -/
structure InOrder (lo : Nat) (b : Builder) : Prop where
  policy : b.policy = .persistent ∨ lo = 0
  le : lo ≤ b.next
  numbered : Numbered lo b.next b.bodies

/-- **The invariant**: every step keeps the numbers in order. -/
theorem Step.inOrder {lo : Nat} {b b' : Builder} (h : b.Step b') (hb : b.InOrder lo) :
    b'.InOrder lo := by
  obtain ⟨hp, hle, hn⟩ := hb
  cases h with
  | @write line hw hl =>
    obtain ⟨ls, rest, hs⟩ := List.exists_cons_of_ne_nil (isWriting_iff.1 hw).2
    refine ⟨hp, hle, ?_⟩
    simp only [bodies, hs] at hn
    simpa [bodies, written, append, report, hs] using hn.write hl
  | @declare op hw _ =>
    obtain ⟨ls, rest, hs⟩ := List.exists_cons_of_ne_nil (isWriting_iff.1 hw).2
    refine ⟨hp, Nat.le_succ_of_le hle, ?_⟩
    simp only [bodies, hs] at hn
    simpa [bodies, declared, written, append, report, hs] using hn.declare hle op
  | enter => exact ⟨hp, hle, hn.enter⟩
  | @keep s lines value outer _ _ hs _ =>
    refine ⟨hp, hle, ?_⟩
    simpa [bodies, addFunction, report, hs] using hn
  | drop _ hs =>
    refine ⟨hp, hle, ?_⟩
    simp only [bodies, hs] at hn
    exact hn.drop
  | start =>
    refine ⟨hp, ?_, .empty _ _⟩
    obtain hp | rfl := hp
    · simpa [begun, hp, CounterPolicy.start] using hle
    · exact Nat.zero_le _
  | @settle r =>
    refine ⟨hp, hle, hn.of_sublist ?_ fun ls hls => ⟨ls, ?_, .refl _⟩⟩
    · rw [bodies_settle, bodies, List.flatMap_append]
      exact List.sublist_append_left _ _
    · rw [bodies_settle] at hls
      exact List.mem_append_left _ hls

/-- At the start of a build nothing is declared yet. -/
theorem inOrder_begun (b : Builder) (uniforms : List Var) :
    (b.begun uniforms).InOrder (b.policy.start b.next) where
  policy := by
    cases hp : b.policy with
    | perBuild => exact .inr rfl
    | persistent => exact .inl hp
  le := Nat.le_refl _
  numbered := .empty _ _

end Builder

/-! ## Finished shaders -/

namespace Program

/-- A finished shader declares numbers from the start of its build on, below the number the builder
goes on with. -/
theorem numbered_of_build {wanted : List Var} {main : Fragment → Program σ Expr} {m m' : σ}
    {b b' : Builder} {out : Output}
    (h : (Program.build wanted main .pure).run m b = (.done (.ok out), m', b')) :
    Numbered (b.policy.start b.next) b'.next (out.functions.map (·.lines) ++ [out.main]) := by
  obtain ⟨-, uniforms, value, b₁, -, hmain, hw, hd, rfl, rfl⟩ := run_build_eq_ok h
  have hreach : (b.begun uniforms).Reaches b₁ := by
    have := (main ⟨uniforms⟩).run_reaches m (b.begun uniforms)
    rwa [hmain] at this
  have hwrite : (b.begun uniforms).Reaches (b₁.written (.color value)) :=
    hreach.tail (.write hw rfl)
  have horder := hwrite.keeps Builder.Step.inOrder (b.inOrder_begun uniforms)
  have hscopes : (b₁.written (.color value)).scopes = [b₁.lines ++ [.color value]] := by
    obtain ⟨ls, hs⟩ := List.length_eq_one_iff.1 hd
    simp [Builder.written, Builder.append, Builder.report, Builder.lines, hs]
  have := horder.numbered
  rw [Builder.bodies, hscopes] at this
  exact this

/-- The temporaries of a shader, by its bodies. -/
theorem flatMap_temps_bodies (out : Output) :
    (out.functions.map (·.lines) ++ [out.main]).flatMap temps = out.temps := by
  simp [Output.temps, List.flatMap_map]

/-- **No temporary is named twice.**

* An operation that succeeds answers with the next temporary; its line declares that one.
* In any run on any builder the numbers are given one after the other; only the start of a build
  sets the number anew. Inside a build the numbers declared are all those between the number before
  and the number after.
* In a finished shader, functions and main block together, every temporary is declared once, and
  every function and the main block declare theirs in increasing order.
* Two shaders of a builder that goes on counting have no temporary in common, whatever was done
  between their builds. -/
theorem temps_never_reused :
    (∀ (b b' : Builder) (op : Operation) (e : Expr), b.perform op = .ok (e, b') →
      e.code = tempName b.next ∧ b'.next = b.next + 1 ∧
        b'.journal = .emitted b.depth (.declare b.next op) :: b.journal) ∧
    (∀ {σ α : Type} (p : Program σ α) (m : σ) (b : Builder),
      let b' := (p.run m b).2.2
      ∃ new, b'.journal = new ++ b.journal ∧ Counts b.policy b.next new b'.next ∧
        (b.building = true →
          new.reverse.filterMap Event.temp? = List.range' b.next (b'.next - b.next))) ∧
    (∀ {σ : Type} (wanted : List Var) (main : Fragment → Program σ Expr) (m m' : σ)
      (b b' : Builder) (out : Output),
      (Program.build wanted main .pure).run m b = (.done (.ok out), m', b') →
      (out.temps.map tempName).Nodup ∧ (temps out.main).Pairwise (· < ·) ∧
        ∀ d ∈ out.functions, (temps d.lines).Pairwise (· < ·)) ∧
    ∀ {σ₁ σ₂ σ₃ α : Type} (wanted₁ wanted₂ : List Var) (main₁ : Fragment → Program σ₁ Expr)
      (between : Program σ₂ α) (main₂ : Fragment → Program σ₃ Expr) (m₁ m₁' : σ₁) (m₂ : σ₂)
      (m₃ m₃' : σ₃) (b b₁ b₂ : Builder) (out₁ out₂ : Output), b.policy = .persistent →
      (Program.build wanted₁ main₁ .pure).run m₁ b = (.done (.ok out₁), m₁', b₁) →
      (Program.build wanted₂ main₂ .pure).run m₃ (between.run m₂ b₁).2.2 =
        (.done (.ok out₂), m₃', b₂) →
      ∀ n ∈ out₁.temps, n ∉ out₂.temps := by
  refine ⟨fun b b' op e h => ?_, fun p m b => ?_, fun wanted main m m' b b' out h => ?_, ?_⟩
  · obtain ⟨-, -, rfl, rfl⟩ := Builder.perform_eq_ok_iff.1 h
    exact ⟨rfl, rfl, rfl⟩
  · obtain ⟨-, new, hj, hc⟩ := (p.run_reaches m b).counts
    refine ⟨new, hj, hc, fun hb => hc.temps_eq ?_⟩
    obtain ⟨new', hj', hi⟩ := (p.run_extends m b hb).journal
    rw [hj] at hj'
    rwa [List.append_cancel_right hj']
  · have hn := numbered_of_build h
    have hnodup := hn.nodup
    rw [flatMap_temps_bodies] at hnodup
    have hnames : (out.temps.map tempName).Nodup :=
      List.Pairwise.map tempName (fun _ _ hne h => hne (tempName_injective h)) hnodup
    refine ⟨hnames, hn.increasing _ (by simp), fun d hd => ?_⟩
    exact hn.increasing _ (List.mem_append_left _ (List.mem_map_of_mem hd))
  · intro σ₁ σ₂ σ₃ α wanted₁ wanted₂ main₁ between main₂ m₁ m₁' m₂ m₃ m₃' b b₁ b₂ out₁ out₂ hp h₁ h₂
      n hn₁ hn₂
    have hbuild := (Program.build wanted₁ main₁ .pure).run_reaches m₁ b
    rw [h₁] at hbuild
    have hp₁ : b₁.policy = .persistent := hbuild.counts.1.trans hp
    obtain ⟨hp', new, -, hc⟩ := (between.run_reaches m₂ b₁).counts
    have hle := hc.le (.inl hp₁)
    have hnum₁ := numbered_of_build h₁
    have hnum₂ := numbered_of_build h₂
    have hlt := (hnum₁.bounds n (flatMap_temps_bodies out₁ ▸ hn₁)).2
    have hge := (hnum₂.bounds n (flatMap_temps_bodies out₂ ▸ hn₂)).1
    rw [hp', hp₁] at hge
    exact absurd (Nat.lt_of_lt_of_le hlt hle) (Nat.not_lt.2 hge)

/-- A main body that goes on after the failure of a conditional that has declared a temporary. -/
def sineTwice : Fragment → Program Unit Expr := fun _ => do
  let sine : Operation := .intrinsic .sin ⟨"t", .float⟩
  let _ ← (ifBlock "t > 0.0" (do let _ ← op sine; .fail (.ofMisuse .abandoned))).attempt
  op sine

/-- The shader of that body, with the number of its only temporary. -/
def sineShader (n : Nat) : Output :=
  ⟨[], [], [.declare n (.intrinsic .sin ⟨"t", .float⟩), .color ⟨tempName n, .float⟩]⟩

theorem build_sineTwice {b : Builder} (h : b.building = false) :
    ∃ b', (Program.build [] sineTwice .pure).run () b =
        (.done (.ok (sineShader (b.policy.start b.next + 1))), (), b') ∧
      b'.building = false ∧ b'.policy = b.policy ∧ b'.next = b.policy.start b.next + 2 :=
  ⟨_, (run_build_of_not_building h).trans rfl, rfl, rfl, rfl⟩

/-- Two shaders of one builder that goes on counting. The temporary of a conditional that failed is
not used again. -/
theorem temps_never_reused_after_rollback :
    ∃ b₀ b₁ b₂ : Builder,
      ((Builder.new .persistent).begun []).perform (.intrinsic .sin ⟨"t", .float⟩) =
        .ok (⟨"v0", .float⟩, b₀) ∧ b₀.next = 1 ∧
      (Program.build [] sineTwice .pure).run () (.new .persistent) =
        (.done (.ok (sineShader 1)), (), b₁) ∧
      (Program.build [] sineTwice .pure).run () b₁ = (.done (.ok (sineShader 3)), (), b₂) ∧
      ((sineShader 3).temps.map tempName).Nodup ∧
      ∀ n ∈ (sineShader 1).temps, n ∉ (sineShader 3).temps := by
  obtain ⟨hstep, -, hout, hpersistent⟩ := temps_never_reused
  obtain ⟨b₁, h₁, hidle, hp, hn⟩ := build_sineTwice (b := .new .persistent) rfl
  obtain ⟨b₂, h₂, -⟩ := build_sineTwice hidle
  rw [hp, hn] at h₂
  have hsine : ((Builder.new .persistent).begun []).perform (.intrinsic .sin ⟨"t", .float⟩) =
      .ok (⟨"v0", .float⟩, _) := rfl
  refine ⟨_, b₁, b₂, hsine, (hstep _ _ _ _ hsine).2.1, h₁, h₂, (hout _ _ _ _ _ _ _ h₂).1, ?_⟩
  exact hpersistent [] [] sineTwice (.pure ()) sineTwice () () () () () _ b₁ b₂ _ _ rfl h₁ h₂

end Program

end Shader
