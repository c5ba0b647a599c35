import Shader.Proofs.Passing

/-!
# The uniforms that a document lists

The reader of graphs takes the uniforms from where they stand, between members that it reads or passes
over. Here they are found by the rules of JSON alone: pass over the outermost members, look up
`uniforms`, read its value like any other and take its members in order.

* `Graph.listed?`: the uniforms that a text lists, in its order;
* `exists_word_of_readChoice`: a choice is read from a word; `membersFrom_related`: two ways to read the
  same members; `Node.isPassed_read`: the main node can be passed over;
* **`Graph.listed?_of_ofText`**: the uniforms of a graph are those that its document lists.
-/

namespace Shader

open Json

variable {α β : Type} {cs rest : List Char}

/-! ## Listing -/

/-- The word that a value is: a string, or an object with the word as its only key and `null` as the
value. -/
def Json.Value.word? : Value → Option String
  | .string word => some word
  | .object [(word, .null)] => some word
  | _ => none

/-- The uniforms that the members of an object declare, in order. -/
def Json.Value.declared? : List (String × Value) → Option (List Var)
  | [] => some []
  | (name, v) :: ms => do
    let word ← v.word?
    let ty ← Ty.ofKeyword? word
    let uniforms ← declared? ms
    return ⟨name, ty⟩ :: uniforms

/-- Pass over a member of an object and keep its key and the text that begins with its value. -/
def Json.keepText (key : String) (before : List (String × List Char)) :
    Reader (List (String × List Char)) := fun cs => do
  let value ← readColon cs
  let rest ← skipValue value
  return (before ++ [(key, value)], rest)

namespace Graph

/-- The uniforms listed by the object at the front of a text. -/
def listedAt? (cs : List Char) : Option (List Var) :=
  match readValue (depthLimit - 1) cs with
  | .ok (.object ms, _) => Value.declared? ms
  | _ => none

/-- **The uniforms that a document lists**, in the order of the text: those of the member `uniforms`,
none without it, or those of the first element if the document is an array. -/
def listed? (text : String) : Option (List Var) :=
  match skipBlanks text.toList with
  | '\x7b' :: inner =>
    match readMembers keepText [] inner with
    | .ok (ms, _) => ((ms.lookup "uniforms").map listedAt?).getD (some [])
    | .error _ => none
  | '[' :: inner =>
    match nextElement true inner with
    | .ok (true, cs) => listedAt? cs
    | _ => none
  | _ => none

end Graph

/-! ## Readers of known shapes -/

theorem refuse_ne_ok (expected : String) (cs : List Char) (r : α × List Char) :
    (refuse expected cs : Except Stop (α × List Char)) ≠ .ok r := by
  intro h
  unfold refuse at h
  split at h
  · cases h
  · cases h
  · split at h
    · cases h
    · split at h
      · cases h
      · split at h <;> cases h

theorem readScalar?_of_readText {expected s : String} (h : readText expected cs = .ok (s, rest)) :
    readScalar? (skipBlanks cs) = some (.ok (.string s, rest)) := by
  unfold readText at h
  cases hcs : skipBlanks cs with
  | nil =>
    rw [hcs] at h
    cases h
  | cons c left =>
    rw [hcs] at h
    dsimp only at h
    split at h
    case isTrue hc =>
      subst hc
      have hscalar : readScalar? ('"' :: left) =
          some ((readString left).map fun r => (.string r.1, r.2)) := rfl
      rw [hscalar, h]
      rfl
    case isFalse => exact absurd h (refuse_ne_ok _ _ _)

theorem isPassed_readText (expected : String) : IsPassed (readText expected) := fun h =>
  passes_of_skipBlanks (passes_of_readScalar? (readScalar?_of_readText h))

theorem readScalar?_of_readNull {expected : String} (h : readNull expected cs = .ok ((), rest)) :
    readScalar? (skipBlanks cs) = some (.ok (.null, rest)) := by
  unfold readNull at h
  cases hcs : skipBlanks cs with
  | nil =>
    rw [hcs] at h
    cases h
  | cons c left =>
    rw [hcs] at h
    dsimp only at h
    split at h
    case isTrue hc =>
      subst hc
      obtain ⟨left', hword, hpair⟩ := map_eq_ok_iff.1 h
      cases hpair
      have hscalar : readScalar? ('n' :: left) = some (readNamed ['u', 'l', 'l'] .null left) := rfl
      rw [hscalar, readNamed, hword]
      rfl
    case isFalse => exact absurd h (refuse_ne_ok _ _ _)

theorem readRecord_cases {expected : String} {array object : Nat → Reader α} {room : Nat} {a : α}
    (h : readRecord expected array object room cs = .ok (a, rest)) :
    ∃ room' inner, room = room' + 1 ∧
      (skipBlanks cs = '[' :: inner ∧ array room' inner = .ok (a, rest) ∨
        skipBlanks cs = '\x7b' :: inner ∧ object room' inner = .ok (a, rest)) := by
  unfold readRecord at h
  cases hcs : skipBlanks cs with
  | nil =>
    rw [hcs] at h
    cases h
  | cons c inner =>
    rw [hcs] at h
    dsimp only at h
    cases room with
    | zero =>
      split at h
      · cases h
      · split at h
        · cases h
        · exact absurd h (refuse_ne_ok _ _ _)
    | succ room =>
      split at h
      case isTrue hc => exact ⟨room, inner, rfl, .inl ⟨by rw [hc], h⟩⟩
      case isFalse =>
        split at h
        case isTrue hc => exact ⟨room, inner, rfl, .inr ⟨by rw [hc], h⟩⟩
        case isFalse => exact absurd h (refuse_ne_ok _ _ _)

theorem readField_eq_ok {name : String} {given : Bool} {value : Reader α} {a : α}
    (h : readField name given value cs = .ok (a, rest)) :
    given = false ∧ ∃ behind, readColon cs = .ok behind ∧ value behind = .ok (a, rest) := by
  unfold readField at h
  cases given with
  | true => cases h
  | false => exact ⟨rfl, bind_eq_ok_iff.1 h⟩

theorem placed_eq_ok {left : List Char} {r : Except Fault α} {a : α} (h : placed left r = .ok a) :
    r = .ok a := by
  cases r with
  | ok b =>
    cases h
    rfl
  | error f => cases h

theorem pick_eq_ok {choices : List String} {meaning : String → Option α} {word : String} {a : α}
    (h : pick choices meaning word = .ok a) : meaning word = some a := by
  unfold pick at h
  cases hm : meaning word with
  | none =>
    rw [hm] at h
    cases h
  | some b =>
    rw [hm] at h
    cases h
    rfl

theorem eq_some_of_requireField {name : String} {o : Option α} {a : α}
    (h : requireField name o = .ok a) : o = some a := by
  cases o with
  | none => cases h
  | some b =>
    cases h
    rfl

/-! ## Reading the same members in two ways -/

/-- **Members are read in two ways.** What holds between the answers before a member holds behind it,
and so at the end; both stop at the same place. -/
theorem membersFrom_related {R : α → β → Prop} {member : String → α → Reader α}
    {member' : String → β → Reader β}
    (hmember : ∀ {key a b cs a' rest}, R a b → member key a cs = .ok (a', rest) →
      ∃ b', member' key b cs = .ok (b', rest) ∧ R a' b')
    {steps : List Char} {first : Bool} {a a' : α} {b : β} (hab : R a b)
    (h : membersFrom member steps first a cs = .ok (a', rest)) :
    ∃ b', membersFrom member' steps first b cs = .ok (b', rest) ∧ R a' b' := by
  induction steps generalizing first a b cs with
  | nil => cases h
  | cons _ steps ih =>
    obtain ⟨⟨key?, left⟩, hnext, hread⟩ := bind_eq_ok_iff.1 h
    cases key? with
    | none =>
      cases hread
      exact ⟨b, bind_eq_ok_iff.2 ⟨_, hnext, rfl⟩, hab⟩
    | some key =>
      obtain ⟨⟨a₁, middle⟩, ha, hread⟩ := bind_eq_ok_iff.1 hread
      obtain ⟨b₁, hb, hab₁⟩ := hmember hab ha
      obtain ⟨b', hb', hab'⟩ := ih hab₁ hread
      exact ⟨b', bind_eq_ok_iff.2 ⟨_, hnext, bind_eq_ok_iff.2 ⟨_, hb, hb'⟩⟩, hab'⟩

theorem readMembers_related {R : α → β → Prop} {member : String → α → Reader α}
    {member' : String → β → Reader β}
    (hmember : ∀ {key a b cs a' rest}, R a b → member key a cs = .ok (a', rest) →
      ∃ b', member' key b cs = .ok (b', rest) ∧ R a' b')
    {a a' : α} {b : β} (hab : R a b) (h : readMembers member a cs = .ok (a', rest)) :
    ∃ b', readMembers member' b cs = .ok (b', rest) ∧ R a' b' :=
  membersFrom_related hmember hab h

/-! ## The object of uniforms -/

/-- Read a member of an object of values and put it before the others. -/
def Json.keepValue (room : Nat) (key : String) (before : List (String × Value)) :
    Reader (List (String × Value)) := fun cs => do
  let cs ← readColon cs
  let (v, rest) ← readValue room cs
  return ((key, v) :: before, rest)

theorem readValue_of_members {room : Nat} {inner : List Char} {ms : List (String × Value)}
    (hcs : skipBlanks cs = '\x7b' :: inner)
    (h : readMembers (keepValue room) [] inner = .ok (ms, rest)) :
    readValue (room + 1) cs = .ok (.object ms.reverse, rest) := by
  have hscalar : readScalar? ('\x7b' :: inner) = none := rfl
  simp only [readValue, readBy, hcs, hscalar]
  exact bind_eq_ok_iff.2 ⟨_, h, rfl⟩

/-- An object with one member. -/
theorem readMembers_one {member : String → α → Reader α} {key : String} {a a' : α}
    {inner left middle : List Char} (hkey : nextKey true inner = .ok (some key, left))
    (hmember : member key a left = .ok (a', middle)) (hend : skipBlanks middle = '\x7d' :: rest) :
    readMembers member a inner = .ok (a', rest) := by
  have hnext : nextKey false middle = .ok (none, rest) := by
    simp only [nextKey, hend]
    rfl
  obtain ⟨hnone, -⟩ | ⟨_, text, before, hsome, hstring, hquote, ⟨-, hbefore⟩ | ⟨hfirst, -⟩⟩ :=
    nextKey_cases hkey
  · cases hnone
  · have hlt := length_lt_of_skipBlanks (hbefore ▸ hquote)
    have hpos := (skipString_of_readString hstring).2
    -- the marks of the key are two characters, as many as there are steps
    have hsteps (steps : List Char) (h : 2 ≤ steps.length) :
        membersFrom member steps true a inner = .ok (a', rest) := by
      match steps with
      | [] | [_] => simp at h
      | _ :: s :: steps =>
        have hlast : membersFrom member (s :: steps) false a' middle = .ok (a', rest) :=
          bind_eq_ok_iff.2 ⟨_, hnext, rfl⟩
        exact bind_eq_ok_iff.2 ⟨_, hkey, bind_eq_ok_iff.2 ⟨_, hmember, hlast⟩⟩
    exact hsteps inner (by omega)
  · cases hfirst

theorem readMembers_of_readChoiceKey {word : String → Except Fault α} {inner : List Char} {a : α}
    (h : readChoiceKey word inner = .ok (a, rest)) (room : Nat) :
    ∃ key, readMembers (keepValue room) [] inner = .ok ([(key, .null)], rest) ∧ word key = .ok a := by
  obtain ⟨⟨key?, left⟩, hkey, h⟩ := bind_eq_ok_iff.1 h
  cases key? with
  | none => cases h
  | some key =>
    obtain ⟨b, hword, h⟩ := bind_eq_ok_iff.1 h
    obtain ⟨behind, hcolon, h⟩ := bind_eq_ok_iff.1 h
    obtain ⟨⟨u, middle⟩, hnull, h⟩ := bind_eq_ok_iff.1 h
    have hvalue : readValue room behind = .ok (.null, middle) :=
      readValue_of_readScalar? room (readScalar?_of_readNull hnull)
    have hmember : keepValue room key [] left = .ok ([(key, .null)], middle) :=
      bind_eq_ok_iff.2 ⟨behind, hcolon, bind_eq_ok_iff.2 ⟨_, hvalue, rfl⟩⟩
    dsimp only at h
    cases hend : skipBlanks middle with
    | nil =>
      rw [hend] at h
      cases h
    | cons d left' =>
      rw [hend] at h
      dsimp only at h
      split at h
      case isTrue hd =>
        cases h
        exact ⟨key, readMembers_one hkey hmember (by rw [hend, hd]), placed_eq_ok hword⟩
      case isFalse => cases h

/-- **A choice is read from a word.** -/
theorem exists_word_of_readChoice {choices : List String} {meaning : String → Option α} {room : Nat}
    {a : α} (h : readChoice choices meaning room cs = .ok (a, rest)) :
    ∃ v word, readValue room cs = .ok (v, rest) ∧ v.word? = some word ∧ meaning word = some a := by
  unfold readChoice at h
  cases hcs : skipBlanks cs with
  | nil =>
    rw [hcs] at h
    cases h
  | cons c inner =>
    rw [hcs] at h
    dsimp only at h
    split at h
    case isTrue hc =>
      obtain ⟨⟨word, left⟩, hword, h⟩ := bind_eq_ok_iff.1 h
      obtain ⟨b, hpick, h⟩ := bind_eq_ok_iff.1 h
      cases h
      have hscalar : readScalar? ('"' :: inner) =
          some ((readString inner).map fun r => (.string r.1, r.2)) := rfl
      refine ⟨.string word, word, readValue_of_readScalar? room ?_, rfl,
        pick_eq_ok (placed_eq_ok hpick)⟩
      rw [hcs, hc, hscalar, hword]
      rfl
    case isFalse =>
      split at h
      case isFalse => cases h
      case isTrue hc =>
        cases room with
        | zero => cases h
        | succ room =>
          obtain ⟨word, hmembers, hword⟩ := readMembers_of_readChoiceKey h room
          exact ⟨_, word, readValue_of_members (by rw [hcs, hc]) hmembers, rfl, pick_eq_ok hword⟩

theorem declared?_append {ms : List (String × Value)} {us : List Var} {name word : String} {v : Value}
    {t : Ty} (hms : Value.declared? ms = some us) (hv : v.word? = some word)
    (ht : Ty.ofKeyword? word = some t) :
    Value.declared? (ms ++ [(name, v)]) = some (us ++ [⟨name, t⟩]) := by
  induction ms generalizing us with
  | nil =>
    cases hms
    simp [Value.declared?, hv, ht]
  | cons m ms ih =>
    obtain ⟨word', hword', hms⟩ := Option.bind_eq_some_iff.1 hms
    obtain ⟨t', ht', hms⟩ := Option.bind_eq_some_iff.1 hms
    obtain ⟨us', hus', hms⟩ := Option.bind_eq_some_iff.1 hms
    cases hms
    simp [Value.declared?, hword', ht', ih hus']

namespace Graph

/-- The uniforms that are read so far are those that the members read so far declare. -/
def Declared (before : List Var) (ms : List (String × Value)) : Prop :=
  Value.declared? ms.reverse = some before

/-- A uniform is read, or its type kept as a value. -/
theorem declared_readUniform {room : Nat} {name : String} {before before' : List Var}
    {ms : List (String × Value)} (hbefore : Declared before ms)
    (h : readUniform room name before cs = .ok (before', rest)) :
    ∃ ms', keepValue room name ms cs = .ok (ms', rest) ∧ Declared before' ms' := by
  obtain ⟨behind, hcolon, h⟩ := bind_eq_ok_iff.1 h
  obtain ⟨⟨ty, left⟩, hty, h⟩ := bind_eq_ok_iff.1 h
  cases h
  obtain ⟨v, word, hv, hword, ht⟩ := exists_word_of_readChoice hty
  refine ⟨(name, v) :: ms, bind_eq_ok_iff.2 ⟨_, hcolon, bind_eq_ok_iff.2 ⟨_, hv, rfl⟩⟩, ?_⟩
  rw [Declared, List.reverse_cons]
  exact declared?_append hbefore hword ht

/-- **The uniforms that are read are those that the object lists.** -/
theorem listed_of_readUniforms {room : Nat} {us : List Var}
    (h : readUniforms room cs = .ok (us, rest)) :
    ∃ ms, readValue room cs = .ok (.object ms, rest) ∧ Value.declared? ms = some us := by
  unfold readUniforms at h
  cases hcs : skipBlanks cs with
  | nil =>
    rw [hcs] at h
    cases h
  | cons c inner =>
    rw [hcs] at h
    dsimp only at h
    split at h
    case isFalse => exact absurd h (refuse_ne_ok _ _ _)
    case isTrue hc =>
      cases room with
      | zero => cases h
      | succ room =>
        have hread : readMembers (readUniform room) [] inner = .ok (us, rest) := h
        have hstart : Declared [] [] := rfl
        obtain ⟨ms, hms, hdeclared⟩ := readMembers_related declared_readUniform hstart hread
        exact ⟨_, readValue_of_members (by rw [hcs, hc]) hms, hdeclared⟩

theorem isPassed_readUniforms (room : Nat) : IsPassed (readUniforms room) := by
  intro cs us rest h
  obtain ⟨ms, hms, -⟩ := listed_of_readUniforms h
  exact isPassed_readValue room hms

end Graph

/-! ## The main node -/

namespace Node

theorem isPassed_readKind : IsPassed readKind := by
  intro cs k rest h
  obtain ⟨⟨word, left⟩, hword, h⟩ := bind_eq_ok_iff.1 h
  obtain ⟨k', -, h⟩ := bind_eq_ok_iff.1 h
  cases h
  exact isPassed_readText _ hword

theorem isMemberPassed_readMember (room : Nat) : IsMemberPassed (readMember room) := by
  intro key o cs o' rest h
  unfold readMember at h
  split at h
  · obtain ⟨⟨k, left⟩, hfield, hpair⟩ := map_eq_ok_iff.1 h
    obtain ⟨-, value, hcolon, hkind⟩ := readField_eq_ok hfield
    cases hpair
    exact ⟨value, hcolon, isPassed_readKind hkind⟩
  · obtain ⟨value, hcolon, h⟩ := bind_eq_ok_iff.1 h
    obtain ⟨⟨v, left⟩, hv, h⟩ := bind_eq_ok_iff.1 h
    cases h
    exact ⟨value, hcolon, isPassed_readValue room hv⟩

/-- **The main node can be passed over**, whether its fields make a node or not. -/
theorem isPassed_read (room : Nat) : IsPassed (read room) := by
  intro cs r rest h
  obtain ⟨room', inner, -, ⟨hcs, h⟩ | ⟨hcs, h⟩⟩ := readRecord_cases h
  · obtain ⟨⟨more, first⟩, hnext, h⟩ := bind_eq_ok_iff.1 h
    cases more with
    | false => cases h
    | true =>
      obtain ⟨⟨k, middle⟩, hkind, h⟩ := bind_eq_ok_iff.1 h
      obtain ⟨⟨vs, left⟩, hvs, h⟩ := bind_eq_ok_iff.1 h
      cases h
      exact passes_array (isPassed_readValue room') hcs hnext (isPassed_readKind hkind) hvs
  · obtain ⟨⟨o, left⟩, hmembers, h⟩ := bind_eq_ok_iff.1 h
    obtain ⟨k, -, h⟩ := bind_eq_ok_iff.1 h
    cases h
    exact passes_members (isMemberPassed_readMember room') hcs hmembers

end Node

/-! ## Documents -/

namespace Graph

theorem isPassed_readMain (room : Nat) : IsPassed (readMain room) := by
  intro cs n rest h
  obtain ⟨⟨node, left⟩, hnode, h⟩ := bind_eq_ok_iff.1 h
  obtain ⟨n', -, h⟩ := bind_eq_ok_iff.1 h
  cases h
  exact Node.isPassed_read room hnode

theorem listedAt?_of_readUniforms {us : List Var}
    (h : readUniforms (depthLimit - 1) cs = .ok (us, rest)) : listedAt? cs = some us := by
  obtain ⟨ms, hms, hdeclared⟩ := listed_of_readUniforms h
  rw [listedAt?, hms]
  exact hdeclared

/-- What is read of a graph so far, and the texts of the members it was read from. -/
def Keeps (d : Draft) (ms : List (String × List Char)) : Prop :=
  match d.uniforms with
  | none => ms.lookup "uniforms" = none
  | some us => ∃ cs, ms.lookup "uniforms" = some cs ∧ listedAt? cs = some us

theorem lookup_append_ne {key name : String} {ms : List (String × List Char)} (cs : List Char)
    (h : name ≠ key) : (ms ++ [(key, cs)]).lookup name = ms.lookup name := by
  rw [List.lookup_append, List.lookup_cons, beq_false_of_ne h]
  simp

theorem Keeps.other {d d' : Draft} {ms : List (String × List Char)} {key : String}
    (h : Keeps d ms) (hkey : key ≠ "uniforms") (hd : d'.uniforms = d.uniforms) (cs : List Char) :
    Keeps d' (ms ++ [(key, cs)]) := by
  unfold Keeps at h ⊢
  rw [hd, lookup_append_ne cs hkey.symm]
  exact h

/-- **A member of a graph is read, or passed over with its text kept.** -/
theorem keeps_readMember {d d' : Draft} {ms : List (String × List Char)} {key : String}
    (hkeeps : Keeps d ms) (h : readMember (depthLimit - 1) key d cs = .ok (d', rest)) :
    ∃ ms', keepText key ms cs = .ok (ms', rest) ∧ Keeps d' ms' := by
  unfold readMember at h
  split at h
  case isTrue hkey =>
    obtain ⟨⟨us, left⟩, hfield, hpair⟩ := map_eq_ok_iff.1 h
    cases hpair
    obtain ⟨hnone, value, hcolon, hus⟩ := readField_eq_ok hfield
    have hpass := (isPassed_readUniforms _ hus).skipValue
    refine ⟨_, bind_eq_ok_iff.2 ⟨_, hcolon, bind_eq_ok_iff.2 ⟨_, hpass, rfl⟩⟩, ?_⟩
    rw [Option.isSome_eq_false_iff, Option.isNone_iff_eq_none] at hnone
    simp only [Keeps, hnone] at hkeeps
    refine ⟨value, ?_, listedAt?_of_readUniforms hus⟩
    rw [List.lookup_append, hkeeps, hkey]
    rfl
  case isFalse hkey =>
    split at h
    case isTrue =>
      obtain ⟨⟨n, left⟩, hfield, hpair⟩ := map_eq_ok_iff.1 h
      cases hpair
      obtain ⟨-, value, hcolon, hn⟩ := readField_eq_ok hfield
      have hpass := (isPassed_readMain _ hn).skipValue
      exact ⟨_, bind_eq_ok_iff.2 ⟨_, hcolon, bind_eq_ok_iff.2 ⟨_, hpass, rfl⟩⟩,
        hkeeps.other hkey rfl value⟩
    case isFalse =>
      obtain ⟨left, hskip, hpair⟩ := map_eq_ok_iff.1 h
      cases hpair
      obtain ⟨value, hcolon, hpass⟩ := bind_eq_ok_iff.1 hskip
      exact ⟨_, bind_eq_ok_iff.2 ⟨_, hcolon, bind_eq_ok_iff.2 ⟨_, hpass, rfl⟩⟩,
        hkeeps.other hkey rfl value⟩

theorem listed?_of_readObject {text : String} {inner : List Char} {g : Graph}
    (hcs : skipBlanks text.toList = '\x7b' :: inner)
    (h : readObject (depthLimit - 1) inner = .ok (g, rest)) : listed? text = some g.uniforms := by
  obtain ⟨⟨d, left⟩, hmembers, h⟩ := bind_eq_ok_iff.1 h
  obtain ⟨main, -, h⟩ := bind_eq_ok_iff.1 h
  cases h
  have hstart : Keeps {} [] := rfl
  obtain ⟨ms, hms, hkeeps⟩ := readMembers_related keeps_readMember hstart hmembers
  simp only [listed?, hcs, hms]
  cases hd : d.uniforms with
  | none =>
    simp only [Keeps, hd] at hkeeps
    rw [hkeeps]
    rfl
  | some us =>
    simp only [Keeps, hd] at hkeeps
    obtain ⟨cs, hlookup, hlisted⟩ := hkeeps
    rw [hlookup]
    exact hlisted

theorem listed?_of_readArray {text : String} {inner : List Char} {g : Graph}
    (hcs : skipBlanks text.toList = '[' :: inner)
    (h : readArray (depthLimit - 1) inner = .ok (g, rest)) : listed? text = some g.uniforms := by
  obtain ⟨⟨more, first⟩, hnext, h⟩ := bind_eq_ok_iff.1 h
  cases more with
  | false => cases h
  | true =>
    obtain ⟨⟨us, middle⟩, hus, h⟩ := bind_eq_ok_iff.1 h
    obtain ⟨⟨more, second⟩, -, h⟩ := bind_eq_ok_iff.1 h
    cases more with
    | false => cases h
    | true =>
      obtain ⟨⟨node, behind⟩, -, h⟩ := bind_eq_ok_iff.1 h
      obtain ⟨main, -, h⟩ := bind_eq_ok_iff.1 h
      obtain ⟨left, -, h⟩ := bind_eq_ok_iff.1 h
      cases h
      simp only [listed?, hcs, hnext]
      exact listedAt?_of_readUniforms hus

/-- A graph that is read from a document is read from the front of it, with all the room there is. -/
theorem exists_of_ofText {text : String} {g : Graph} (h : ofText text = .ok g) :
    ∃ rest, read depthLimit text.toList = .ok (g, rest) := by
  unfold ofText readDocument at h
  cases hwhole : readWhole read text.toList with
  | error stop =>
    rw [hwhole] at h
    cases h
  | ok g' =>
    rw [hwhole] at h
    cases h
    obtain ⟨⟨g', rest⟩, hread, hwhole⟩ := bind_eq_ok_iff.1 hwhole
    dsimp only at hwhole
    split at hwhole
    · cases hwhole
      exact ⟨rest, hread⟩
    · cases hwhole

/-- **The uniforms of a graph are those that its document lists**, in the order of the text. -/
theorem listed?_of_ofText {text : String} {g : Graph} (h : ofText text = .ok g) :
    listed? text = some g.uniforms := by
  obtain ⟨rest, hread⟩ := exists_of_ofText h
  obtain ⟨room, inner, hroom, hcases⟩ := readRecord_cases hread
  obtain rfl : room = depthLimit - 1 := by
    rw [hroom]
    rfl
  obtain ⟨hcs, h⟩ | ⟨hcs, h⟩ := hcases
  · exact listed?_of_readArray hcs h
  · exact listed?_of_readObject hcs h

end Graph

end Shader
