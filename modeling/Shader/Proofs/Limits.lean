import Shader.Proofs.Document
import Shader.Proofs.Ranges

/-!
# Graphs that are read stay within limits

The reader of a document has room for so many containers, and it refuses numbers that are too large. A
node is made of values that have been read like this before, so both limits pass on to it: no node has
more nodes inside each other than there was room for containers, and its numbers are finite.

* `Node.Within`: nodes within limits; `Draft.within_put`, `Draft.within_of_complete`: fields and the
  node made of them; **`within_of_ofValue`**: the node of a value; `within_of_read`: the outermost node;
* **`Graph.within_of_ofText`**: the main node of a document;
* `Node.programWithin`: evaluation with a bounded depth; **`programWithin_eq`**: a bound on the height
  of a node is enough for it.
-/

namespace Shader

open Json

variable {room : ℕ} {cs rest : List Char}

namespace Node

/-! ## Fields -/

/-- A node with finite numbers and at most `room` nodes inside each other. -/
structure Within (room : ℕ) (n : Node) : Prop where
  height : n.height ≤ room
  finite : ∀ x ∈ n.numbers, x.isFinite = true

/-- What a field holds is within limits. -/
def Slot.Within (room : ℕ) : Slot → Prop
  | .text _ => True
  | .number x => x.isFinite = true
  | .optional y => ∀ x ∈ y, x.isFinite = true
  | .node n => n.Within room

namespace Draft

/-- All fields that are read so far are within limits. -/
def Within (room : ℕ) (d : Draft) : Prop := ∀ field s, d.slot field = some s → s.Within room

theorem within_empty (room : ℕ) : Within room {} := by
  intro field s h
  rw [slot_empty] at h
  cases h

theorem isFinite_of_numberOf {v : Value} (hv : v.Within room) {x : Binary64}
    (h : numberOf v = .ok x) : x.isFinite = true := by
  cases hv with
  | integer hi =>
    cases h
    exact hi
  | float hx =>
    cases h
    exact hx
  | _ => cases h

theorem isFinite_of_optionalOf {v : Value} (hv : v.Within room) {y : Option Binary64}
    (h : optionalOf v = .ok y) : ∀ x ∈ y, x.isFinite = true := by
  unfold optionalOf at h
  split at h
  · cases h
    simp
  · obtain ⟨x, hx, rfl⟩ := map_eq_ok_iff.1 h
    simpa using isFinite_of_numberOf hv hx

/-- What a value is for a field, if it and its node are within limits. -/
theorem within_of_slotOf {field : String} {v : Value} {node : Except Fault Node} {s : Slot}
    (hv : v.Within room) (hnode : ∀ n, node = .ok n → n.Within room)
    (h : slotOf field v node = .ok s) : s.Within room := by
  unfold slotOf at h
  split at h
  case h_1 =>
    obtain ⟨text, -, rfl⟩ := map_eq_ok_iff.1 h
    trivial
  case h_4 =>
    obtain ⟨y, hy, rfl⟩ := map_eq_ok_iff.1 h
    exact isFinite_of_optionalOf hv hy
  case h_5 =>
    obtain ⟨n, hn, rfl⟩ := map_eq_ok_iff.1 h
    exact hnode n hn
  all_goals
    obtain ⟨x, hx, rfl⟩ := map_eq_ok_iff.1 h
    exact isFinite_of_numberOf hv hx

/-- A value that can be put into a field is something for the field. -/
theorem exists_slotOf_of_put {d d' : Draft} {field : String} {v : Value} {node : Except Fault Node}
    (hfield : field ∈ names) (h : d.put field v node = .ok d') :
    ∃ s, slotOf field v node = .ok s := by
  simp only [names, List.mem_cons, List.not_mem_nil, or_false] at hfield
  rcases hfield with rfl | rfl | rfl | rfl | rfl | rfl | rfl | rfl | rfl | rfl
  all_goals
    obtain ⟨a, ha, -⟩ := bind_eq_ok_iff.1 h
    exact ⟨_, map_eq_ok_iff.2 ⟨a, ha, rfl⟩⟩

/-- **A field is put beside others**, and all of them are within limits. -/
theorem within_put {d d' : Draft} {field : String} {v : Value} {node : Except Fault Node}
    (hfield : field ∈ names) (hd : d.Within room) (hv : v.Within room)
    (hnode : ∀ n, node = .ok n → n.Within room) (h : d.put field v node = .ok d') :
    d'.Within room := by
  obtain ⟨s, hs⟩ := exists_slotOf_of_put hfield h
  obtain ⟨d₁, hput, hslot, hother⟩ := put_slot (d := d) hfield hs
  obtain rfl : d' = d₁ := Except.ok.inj (h.symm.trans hput)
  intro field' s' h'
  by_cases heq : field' = field
  · subst heq
    obtain rfl : s = s' := Option.some.inj (hslot.symm.trans h')
    exact within_of_slotOf hv hnode hs
  · exact hd field' s' ((hother field' heq).symm.trans h')

/-- The number of a field. -/
theorem Within.number {d : Draft} (hd : d.Within room) (field : String) {o : Option Binary64}
    {x : Binary64} (hslot : d.slot field = o.map .number) (h : requireField field o = .ok x) :
    x.isFinite = true := by
  rw [eq_some_of_requireField h] at hslot
  exact hd field _ hslot

/-- The node of a field. -/
theorem Within.node {d : Draft} (hd : d.Within room) (field : String) {o : Option Node} {n : Node}
    (hslot : d.slot field = o.map .node) (h : requireField field o = .ok n) : n.Within room := by
  rw [eq_some_of_requireField h] at hslot
  exact hd field _ hslot

/-- **The node that is made of fields** takes one container more than they do. -/
theorem within_of_complete {d : Draft} {k : Kind} {n : Node} (hd : d.Within room)
    (h : d.complete k = .ok n) : n.Within (room + 1) := by
  have hleaf : 1 ≤ room + 1 := Nat.le_add_left 1 room
  cases k with
  | coord =>
    cases h
    exact ⟨hleaf, by simp [numbers]⟩
  | uniform =>
    obtain ⟨name, -, h⟩ := bind_eq_ok_iff.1 h
    cases h
    exact ⟨hleaf, by simp [numbers]⟩
  | literal =>
    obtain ⟨x, hx, h⟩ := bind_eq_ok_iff.1 h
    cases h
    have hfinite := hd.number "value" rfl hx
    exact ⟨hleaf, by simpa [numbers] using hfinite⟩
  | vec2 =>
    obtain ⟨x, hx, h⟩ := bind_eq_ok_iff.1 h
    cases h
    refine ⟨hleaf, List.forall_mem_cons.2 ⟨hd.number "x" rfl hx, ?_⟩⟩
    cases hy : d.y with
    | none => simp
    | some y =>
      have hslot : d.slot "y" = some (.optional y) := congrArg (Option.map Slot.optional) hy
      have hfinite : ∀ x ∈ y, x.isFinite = true := hd "y" _ hslot
      simpa using hfinite
  | arithmetic op =>
    obtain ⟨lhs, hlhs, h⟩ := bind_eq_ok_iff.1 h
    obtain ⟨rhs, hrhs, h⟩ := bind_eq_ok_iff.1 h
    cases h
    have hl := hd.node "lhs" rfl hlhs
    have hr := hd.node "rhs" rfl hrhs
    exact ⟨Nat.succ_le_succ (Nat.max_le.2 ⟨hl.height, hr.height⟩),
      List.forall_mem_append.2 ⟨hl.finite, hr.finite⟩⟩
  | intrinsic fn =>
    obtain ⟨arg, harg, h⟩ := bind_eq_ok_iff.1 h
    cases h
    have ha := hd.node "arg" rfl harg
    exact ⟨Nat.succ_le_succ ha.height, ha.finite⟩
  | step =>
    obtain ⟨arg, harg, h⟩ := bind_eq_ok_iff.1 h
    obtain ⟨edge, hedge, h⟩ := bind_eq_ok_iff.1 h
    cases h
    have ha := hd.node "arg" rfl harg
    have he := hd.node "edge" rfl hedge
    exact ⟨Nat.succ_le_succ (Nat.max_le.2 ⟨ha.height, he.height⟩),
      List.forall_mem_append.2 ⟨ha.finite, he.finite⟩⟩
  | smoothstep =>
    obtain ⟨arg, harg, h⟩ := bind_eq_ok_iff.1 h
    obtain ⟨edge₀, hedge₀, h⟩ := bind_eq_ok_iff.1 h
    obtain ⟨edge₁, hedge₁, h⟩ := bind_eq_ok_iff.1 h
    cases h
    have ha := hd.node "arg" rfl harg
    have h₀ := hd.node "edge0" rfl hedge₀
    have h₁ := hd.node "edge1" rfl hedge₁
    exact ⟨Nat.succ_le_succ (Nat.max_le.2 ⟨ha.height, Nat.max_le.2 ⟨h₀.height, h₁.height⟩⟩),
      List.forall_mem_append.2 ⟨ha.finite, List.forall_mem_append.2 ⟨h₀.finite, h₁.finite⟩⟩⟩
  | channel c =>
    obtain ⟨arg, harg, h⟩ := bind_eq_ok_iff.1 h
    cases h
    have ha := hd.node "arg" rfl harg
    exact ⟨Nat.succ_le_succ ha.height, ha.finite⟩

end Draft

/-! ## Values of nodes -/

/-- A value within limits whose node, if it stands for one, is so too. -/
def Carries (room : ℕ) (v : Value) : Prop := v.Within room ∧ ∀ n, ofValue v = .ok n → n.Within room

theorem within_of_draftOfMembers {k : Kind} {d d' : Draft} {ms : List (String × Value)}
    (hms : ∀ m ∈ ms, Carries room m.2) (hd : d.Within room) (h : draftOfMembers k d ms = .ok d') :
    d'.Within room := by
  induction ms generalizing d with
  | nil =>
    cases h
    exact hd
  | cons m ms ih =>
    obtain ⟨key, v⟩ := m
    obtain ⟨⟨hv, hnode⟩, hms⟩ := List.forall_mem_cons.1 hms
    rw [draftOfMembers] at h
    split at h
    case isTrue hkey =>
      split at h
      · cases h
      · obtain ⟨d₁, hput, h⟩ := bind_eq_ok_iff.1 h
        have hfield := k.fields_subset (List.contains_iff_mem.1 hkey)
        exact ih hms (Draft.within_put hfield hd hv hnode hput) h
    case isFalse => exact ih hms hd h

theorem within_of_draftOfItems {k : Kind} {total : ℕ} {d d' : Draft} {fields : List String}
    {vs : List Value} (hfields : fields ⊆ Draft.names) (hvs : ∀ v ∈ vs, Carries room v)
    (hd : d.Within room) (h : draftOfItems k total d fields vs = .ok d') : d'.Within room := by
  induction fields generalizing d vs with
  | nil =>
    cases vs with
    | nil =>
      rw [draftOfItems] at h
      cases h
      exact hd
    | cons v vs =>
      rw [draftOfItems] at h
      cases h
  | cons field fields ih =>
    cases vs with
    | nil =>
      rw [draftOfItems] at h
      cases h
    | cons v vs =>
      obtain ⟨⟨hv, hnode⟩, hvs⟩ := List.forall_mem_cons.1 hvs
      obtain ⟨hfield, hfields⟩ := List.cons_subset.1 hfields
      rw [draftOfItems] at h
      obtain ⟨d₁, hput, h⟩ := bind_eq_ok_iff.1 h
      exact ih hfields hvs (Draft.within_put hfield hd hv hnode hput) h

/-- The node of the members of an object. -/
theorem within_of_members {k : Kind} {ms : List (String × Value)} {n : Node}
    (hms : ∀ m ∈ ms, Carries room m.2)
    (h : (draftOfMembers k {} ms).bind (·.complete k) = .ok n) : n.Within (room + 1) := by
  obtain ⟨d, hd, hcomplete⟩ := bind_eq_ok_iff.1 h
  have hwithin := within_of_draftOfMembers hms (Draft.within_empty room) hd
  exact Draft.within_of_complete hwithin hcomplete

/-- The node of the elements of an array behind its kind. -/
theorem within_of_items {k : Kind} {vs : List Value} {n : Node} (hvs : ∀ v ∈ vs, Carries room v)
    (h : (draftOfItems k vs.length {} k.fields vs).bind (·.complete k) = .ok n) :
    n.Within (room + 1) := by
  obtain ⟨d, hd, hcomplete⟩ := bind_eq_ok_iff.1 h
  have hwithin := within_of_draftOfItems k.fields_subset hvs (Draft.within_empty room) hd
  exact Draft.within_of_complete hwithin hcomplete

/-- **The node of a value keeps its limits.** By induction on the value, one container at a time. -/
theorem within_of_ofValue {v : Value} (hv : v.Within room) {n : Node} (h : ofValue v = .ok n) :
    n.Within room := by
  induction hv generalizing n with
  | @array room vs hvs ih =>
    cases vs with
    | nil =>
      rw [ofValue] at h
      cases h
    | cons v vs =>
      rw [ofValue] at h
      obtain ⟨k, -, h⟩ := bind_eq_ok_iff.1 h
      have hcarry : ∀ w ∈ vs, Carries room w := fun w hw =>
        ⟨hvs w (List.mem_cons_of_mem v hw), fun _ => ih w (List.mem_cons_of_mem v hw)⟩
      exact within_of_items hcarry h
  | @object room ms hms ih =>
    rw [ofValue] at h
    obtain ⟨k, -, h⟩ := bind_eq_ok_iff.1 h
    have hcarry : ∀ m ∈ ms, Carries room m.2 := fun m hm => ⟨hms m hm, fun _ => ih m hm⟩
    exact within_of_members hcarry h
  | _ =>
    rw [ofValue] at h
    · cases h
    all_goals simp

theorem carries_of_within {v : Value} (h : v.Within room) : Carries room v :=
  ⟨h, fun _ => within_of_ofValue h⟩

/-! ## The outermost node -/

theorem within_of_readMember {key : String} {o o' : Outline}
    (ho : ∀ m ∈ o.members, m.2.Within room) (h : readMember room key o cs = .ok (o', rest)) :
    ∀ m ∈ o'.members, m.2.Within room := by
  unfold readMember at h
  split at h
  · obtain ⟨⟨k, left⟩, -, hpair⟩ := map_eq_ok_iff.1 h
    cases hpair
    exact ho
  · obtain ⟨value, -, h⟩ := bind_eq_ok_iff.1 h
    obtain ⟨⟨v, left⟩, hv, h⟩ := bind_eq_ok_iff.1 h
    cases h
    exact List.forall_mem_cons.2 ⟨within_of_readValue hv, ho⟩

/-- **The outermost node**, which is read member by member. -/
theorem within_of_read {n : Node} (h : read room cs = .ok (.ok n, rest)) : n.Within room := by
  obtain ⟨room', inner, rfl, ⟨-, h⟩ | ⟨-, h⟩⟩ := readRecord_cases h
  · obtain ⟨⟨more, first⟩, -, h⟩ := bind_eq_ok_iff.1 h
    cases more with
    | false => cases h
    | true =>
      obtain ⟨⟨k, middle⟩, -, h⟩ := bind_eq_ok_iff.1 h
      obtain ⟨⟨vs, left⟩, hvs, h⟩ := bind_eq_ok_iff.1 h
      have hcarry : ∀ v ∈ vs, Carries room' v := fun v hv => carries_of_within
        (forall_of_elementsFrom (P := Value.Within room') within_of_readValue hvs v hv)
      exact within_of_items hcarry (Prod.mk.inj (Except.ok.inj h)).1
  · obtain ⟨⟨o, left⟩, hmembers, h⟩ := bind_eq_ok_iff.1 h
    obtain ⟨k, -, h⟩ := bind_eq_ok_iff.1 h
    have hkept : ∀ m ∈ o.members, m.2.Within room' :=
      holds_of_readMembers (P := fun o : Outline => ∀ m ∈ o.members, m.2.Within room')
        within_of_readMember (by simp) hmembers
    have hcarry : ∀ m ∈ o.members.reverse, Carries room' m.2 := fun m hm =>
      carries_of_within (hkept m (List.mem_reverse.1 hm))
    exact within_of_members hcarry (Prod.mk.inj (Except.ok.inj h)).1

end Node

/-! ## Documents -/

namespace Graph

theorem within_of_readMain {n : Node} (h : readMain room cs = .ok (n, rest)) : n.Within room := by
  obtain ⟨⟨node, left⟩, hread, h⟩ := bind_eq_ok_iff.1 h
  obtain ⟨n', hn', h⟩ := bind_eq_ok_iff.1 h
  cases h
  obtain rfl := placed_eq_ok hn'
  exact Node.within_of_read hread

theorem within_of_readMember {key : String} {d d' : Draft} (hd : ∀ n ∈ d.main, n.Within room)
    (h : readMember room key d cs = .ok (d', rest)) : ∀ n ∈ d'.main, n.Within room := by
  unfold readMember at h
  split at h
  · obtain ⟨⟨us, left⟩, -, hpair⟩ := map_eq_ok_iff.1 h
    cases hpair
    exact hd
  · split at h
    · obtain ⟨⟨n, left⟩, hfield, hpair⟩ := map_eq_ok_iff.1 h
      cases hpair
      obtain ⟨-, value, -, hn⟩ := readField_eq_ok hfield
      simpa using within_of_readMain hn
    · obtain ⟨left, -, hpair⟩ := map_eq_ok_iff.1 h
      cases hpair
      exact hd

/-- **The main node of a document** has the room of all containers but the document itself. -/
theorem within_of_ofText {text : String} {g : Graph} (h : ofText text = .ok g) :
    g.main.Within 126 := by
  obtain ⟨rest, hread⟩ := exists_of_ofText h
  obtain ⟨room, inner, hroom, hcases⟩ := readRecord_cases hread
  obtain rfl : room = 126 := (Nat.succ.inj hroom).symm
  obtain ⟨-, harray⟩ | ⟨-, hobject⟩ := hcases
  · obtain ⟨⟨more, first⟩, -, harray⟩ := bind_eq_ok_iff.1 harray
    cases more with
    | false => cases harray
    | true =>
      obtain ⟨⟨us, middle⟩, -, harray⟩ := bind_eq_ok_iff.1 harray
      obtain ⟨⟨more, second⟩, -, harray⟩ := bind_eq_ok_iff.1 harray
      cases more with
      | false => cases harray
      | true =>
        obtain ⟨⟨node, behind⟩, hnode, harray⟩ := bind_eq_ok_iff.1 harray
        obtain ⟨main, hmain, harray⟩ := bind_eq_ok_iff.1 harray
        obtain ⟨left, -, harray⟩ := bind_eq_ok_iff.1 harray
        cases harray
        obtain rfl := placed_eq_ok hmain
        exact Node.within_of_read hnode
  · obtain ⟨⟨d, left⟩, hmembers, hobject⟩ := bind_eq_ok_iff.1 hobject
    obtain ⟨main, hmain, hobject⟩ := bind_eq_ok_iff.1 hobject
    cases hobject
    have hkept : ∀ n ∈ d.main, n.Within 126 :=
      holds_of_readMembers (P := fun d : Draft => ∀ n ∈ d.main, n.Within 126) within_of_readMember
        (by simp) hmembers
    exact hkept main (eq_some_of_requireField (placed_eq_ok hmain))

end Graph

/-! ## The depth of evaluation -/

namespace Node

variable {σ : Type}

/-- Evaluate a node with at most `depth` evaluations inside each other; `none` if these are not enough.
-/
def programWithin (f : Fragment) : (depth : ℕ) → Node → Option (Program σ Expr)
  | 0, _ => none
  | _ + 1, .coord => some (pure f.coord)
  | _ + 1, .uniform name => some (.ofExcept (f.uniform name))
  | _ + 1, .literal v => some (pure (.float v))
  | _ + 1, .vec2 x y => some (pure (.vec2 x y))
  | depth + 1, .arithmetic op lhs rhs => do
    let p ← programWithin f depth lhs
    let q ← programWithin f depth rhs
    return do
      let a ← p
      let b ← rhs.operand q
      .op (.arithmetic op a b)
  | depth + 1, .intrinsic fn arg => do
    let p ← programWithin f depth arg
    return do
      let a ← p
      .op (.intrinsic fn a)
  | depth + 1, .step arg edge => do
    let p ← programWithin f depth arg
    let q ← programWithin f depth edge
    return do
      let a ← p
      let e ← edge.operand q
      .op (.step a e)
  | depth + 1, .smoothstep arg edge₀ edge₁ => do
    let p ← programWithin f depth arg
    let q₀ ← programWithin f depth edge₀
    let q₁ ← programWithin f depth edge₁
    return do
      let a ← p
      let e₀ ← edge₀.operand q₀
      let e₁ ← edge₁.operand q₁
      .op (.smoothstep a e₀ e₁)
  | depth + 1, .channel c arg => do
    let p ← programWithin f depth arg
    return do
      let a ← p
      .op (.channel c a)

/-- **The height of a node bounds the depth of its evaluation.** -/
theorem programWithin_eq (f : Fragment) {depth : ℕ} (n : Node) (h : n.height ≤ depth) :
    programWithin f depth n = some (n.program f : Program σ Expr) := by
  induction depth generalizing n with
  | zero => exact absurd h (Nat.not_le_of_lt n.height_pos)
  | succ depth ih =>
    cases n with
    | coord | uniform | literal | vec2 => rfl
    | arithmetic op lhs rhs =>
      obtain ⟨hl, hr⟩ := Nat.max_le.1 (Nat.le_of_succ_le_succ h)
      rw [programWithin, ih lhs hl, ih rhs hr]
      rfl
    | intrinsic fn arg =>
      rw [programWithin, ih arg (Nat.le_of_succ_le_succ h)]
      rfl
    | step arg edge =>
      obtain ⟨ha, he⟩ := Nat.max_le.1 (Nat.le_of_succ_le_succ h)
      rw [programWithin, ih arg ha, ih edge he]
      rfl
    | smoothstep arg edge₀ edge₁ =>
      obtain ⟨ha, hedges⟩ := Nat.max_le.1 (Nat.le_of_succ_le_succ h)
      obtain ⟨h₀, h₁⟩ := Nat.max_le.1 hedges
      rw [programWithin, ih arg ha, ih edge₀ h₀, ih edge₁ h₁]
      rfl
    | channel c arg =>
      rw [programWithin, ih arg (Nat.le_of_succ_le_succ h)]
      rfl

end Node

end Shader
