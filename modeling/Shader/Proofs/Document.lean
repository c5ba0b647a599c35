import Mathlib.Data.List.Nodup
import Mathlib.Data.List.Perm.Basic
import Shader.Document.Graph
import Shader.Proofs.Answers
import Shader.Proofs.Layout

/-!
# Graph documents are read back

The object of a node may name its kind anywhere among its fields, and the fields in any order. So a
graph has many documents, and blanks between the tokens make them more. All of them are read as the
graph, numbers being what is read for their texts.

* `Draft.slot`, `put_slot`: the fields of a node as entries by name; **`draftOfMembers_eq`**: what they
  are for members in any order;
* `Node.Written`, `Graph.Written`: the values that stand for a node or a graph; `Graph.IsLayout`: its
  documents; `ReadsBack`: numbers that are read back from their texts;
* **`Node.Written.isUnderstood`**: what a node is read as inside another one; `Understood.reads`: the
  outermost node; `reads_graph`: a graph;
* **`reading_undoes_writing`**: every document of a graph.
-/

namespace Shader

open Json

namespace Node

/-! ## Fields by name -/

/-- What a field of a node holds. -/
inductive Slot
  | text (s : String)
  | number (x : Binary64)
  | optional (y : Option Binary64)
  | node (n : Node)

namespace Draft

/-- The fields that a node can have. -/
def names : List String :=
  ["name", "value", "x", "y", "arg", "lhs", "rhs", "edge", "edge0", "edge1"]

/-- What a draft has for a field. -/
def slot (d : Draft) (field : String) : Option Slot :=
  match field with
  | "name" => d.name.map .text
  | "value" => d.value.map .number
  | "x" => d.x.map .number
  | "y" => d.y.map .optional
  | "arg" => d.arg.map .node
  | "lhs" => d.lhs.map .node
  | "rhs" => d.rhs.map .node
  | "edge" => d.edge.map .node
  | "edge0" => d.edge₀.map .node
  | "edge1" => d.edge₁.map .node
  | _ => none

/-- What a value is for a field, given also the node that it stands for. -/
def slotOf (field : String) (v : Value) (node : Except Fault Node) : Except Fault Slot :=
  match field with
  | "name" => (textOf v).map .text
  | "value" | "x" => (numberOf v).map .number
  | "y" => (optionalOf v).map .optional
  | _ => node.map .node

theorem has_eq (d : Draft) (field : String) : d.has field = (d.slot field).isSome := by
  unfold has slot
  split <;> simp

/-- **A field is put into its place**, and the others stay. -/
theorem put_slot {d : Draft} {field : String} {v : Value} {node : Except Fault Node} {s : Slot}
    (hfield : field ∈ names) (h : slotOf field v node = .ok s) :
    ∃ d', d.put field v node = .ok d' ∧ d'.slot field = some s ∧
      ∀ other, other ≠ field → d'.slot other = d.slot other := by
  simp only [names, List.mem_cons, List.not_mem_nil, or_false] at hfield
  rcases hfield with rfl | rfl | rfl | rfl | rfl | rfl | rfl | rfl | rfl | rfl
  all_goals
    simp only [slotOf] at h
    obtain ⟨a, ha, rfl⟩ := map_eq_ok_iff.1 h
    simp only [put, ha, bind, Except.bind, pure, Except.pure]
    refine ⟨_, rfl, rfl, fun other hother => ?_⟩
    unfold slot
    split <;> first | rfl | exact absurd rfl hother

end Draft

theorem Draft.slot_empty (field : String) : ({} : Draft).slot field = none := by
  unfold Draft.slot
  split <;> rfl

namespace Kind

theorem fields_subset (k : Kind) : k.fields ⊆ Draft.names := by
  cases k <;> simp [fields, Draft.names]

theorem nodup_fields (k : Kind) : k.fields.Nodup := by
  cases k <;> simp [fields]

theorem tag_not_mem_fields (k : Kind) : tag ∉ k.fields := by
  cases k <;> simp [fields, tag]

/-- A kind is read back from its name. -/
theorem ofName_name (k : Kind) : ofName k.name = .ok k := by
  cases k with
  | arithmetic op => cases op <;> rfl
  | intrinsic fn => cases fn <;> rfl
  | channel c => cases c <;> rfl
  | _ => rfl

end Kind

/-- **The fields among the members of an object**, in whatever order they stand. -/
theorem draftOfMembers_eq {k : Kind} {ms : List (String × Value)} {d : Draft}
    (hkeys : (ms.map (·.1)).Nodup) (hnew : ∀ m ∈ ms, d.slot m.1 = none)
    (hok : ∀ m ∈ ms, m.1 ∈ k.fields → ∃ s, Draft.slotOf m.1 m.2 (ofValue m.2) = .ok s) :
    ∃ d', draftOfMembers k d ms = .ok d' ∧
      (∀ m ∈ ms, m.1 ∈ k.fields → ∀ s, Draft.slotOf m.1 m.2 (ofValue m.2) = .ok s →
        d'.slot m.1 = some s) ∧
      ∀ field, field ∉ ms.map (·.1) → d'.slot field = d.slot field := by
  induction ms generalizing d with
  | nil => exact ⟨d, rfl, by simp, fun _ _ => rfl⟩
  | cons m ms ih =>
    obtain ⟨key, v⟩ := m
    obtain ⟨hkey, hkeys⟩ := List.nodup_cons.1 hkeys
    have hnew' : ∀ m ∈ ms, d.slot m.1 = none := fun m hm => hnew m (List.mem_cons_of_mem _ hm)
    have hok' : ∀ m ∈ ms, m.1 ∈ k.fields → ∃ s, Draft.slotOf m.1 m.2 (ofValue m.2) = .ok s :=
      fun m hm => hok m (List.mem_cons_of_mem _ hm)
    by_cases hfield : key ∈ k.fields
    · obtain ⟨s, hs⟩ := hok (key, v) List.mem_cons_self hfield
      obtain ⟨d₁, hput, hkey₁, hother⟩ := Draft.put_slot (d := d) (k.fields_subset hfield) hs
      have hnew₁ : ∀ m ∈ ms, d₁.slot m.1 = none := fun m hm => by
        have hmem : m.1 ∈ ms.map (·.1) := List.mem_map_of_mem hm
        rw [hother m.1 fun he => hkey (he ▸ hmem)]
        exact hnew' m hm
      obtain ⟨d', hrest, hslots, hsame⟩ := ih hkeys hnew₁ hok'
      refine ⟨d', ?_, ?_, ?_⟩
      · have hhas : d.has key = false := by
          rw [Draft.has_eq, hnew (key, v) List.mem_cons_self]
          rfl
        simp only [draftOfMembers, List.contains_iff_mem.2 hfield, hhas, hput, if_true, bind,
          Except.bind]
        exact hrest
      · intro m hm hm' s' hs'
        obtain rfl | hm := List.mem_cons.1 hm
        · rw [hsame key hkey, hkey₁]
          exact congrArg some (Except.ok.inj (hs.symm.trans hs'))
        · exact hslots m hm hm' s' hs'
      · intro field hnot
        rw [hsame field (List.not_mem_of_not_mem_cons hnot),
          hother field (List.ne_of_not_mem_cons hnot)]
    · obtain ⟨d', hrest, hslots, hsame⟩ := ih hkeys hnew' hok'
      refine ⟨d', ?_, ?_, ?_⟩
      · have hcontains : k.fields.contains key = false := by simpa using hfield
        rw [draftOfMembers, hcontains]
        exact hrest
      · intro m hm hm' s' hs'
        obtain rfl | hm := List.mem_cons.1 hm
        · exact absurd hm' hfield
        · exact hslots m hm hm' s' hs'
      · intro field hnot
        exact hsame field (List.not_mem_of_not_mem_cons hnot)

/-- The member that names the kind is no field. -/
theorem draftOfMembers_filter (k : Kind) (d : Draft) (ms : List (String × Value)) :
    draftOfMembers k d (ms.filter (·.1 ≠ tag)) = draftOfMembers k d ms := by
  induction ms generalizing d with
  | nil => rfl
  | cons m ms ih =>
    obtain ⟨key, v⟩ := m
    by_cases hkey : key = tag
    · have hcontains : k.fields.contains key = false := by
        simpa [hkey] using k.tag_not_mem_fields
      rw [List.filter_cons_of_neg (by simpa using hkey), ih, draftOfMembers, hcontains]
      rfl
    · rw [List.filter_cons_of_pos (by simpa using hkey)]
      simp only [draftOfMembers, ih]

theorem kindOfMembers_of_not_mem {ms : List (String × Value)} (h : tag ∉ ms.map (·.1))
    (found : Option Kind) : kindOfMembers found ms = requireField tag found := by
  induction ms with
  | nil => rfl
  | cons m ms ih =>
    have hne : m.1 ≠ tag := (List.ne_of_not_mem_cons h).symm
    rw [kindOfMembers, if_neg hne, ih (List.not_mem_of_not_mem_cons h)]

/-- The kind is named once, wherever it stands. -/
theorem kindOfMembers_eq {k : Kind} {ms : List (String × Value)} (hkeys : (ms.map (·.1)).Nodup)
    (h : (tag, .string k.name) ∈ ms) : kindOfMembers none ms = .ok k := by
  induction ms with
  | nil => cases h
  | cons m ms ih =>
    obtain ⟨hkey, hkeys⟩ := List.nodup_cons.1 hkeys
    obtain rfl | h := List.mem_cons.1 h
    · have hkind : Kind.ofValue (.string k.name) = .ok k := k.ofName_name
      simp only [kindOfMembers, if_true, hkind, kindOfMembers_of_not_mem hkey]
      rfl
    · have hmem : tag ∈ ms.map (·.1) := List.mem_map_of_mem (f := (·.1)) h
      have hne : m.1 ≠ tag := by
        rintro he
        rw [← he] at hmem
        exact hkey hmem
      rw [kindOfMembers, if_neg hne]
      exact ih hkeys h

/-! ## Values of nodes -/

/-- The number of objects inside each other. -/
def height : Node → Nat
  | .coord | .uniform _ | .literal _ | .vec2 _ _ => 1
  | .arithmetic _ a b | .step a b => max (height a) (height b) + 1
  | .smoothstep a b c => max (height a) (max (height b) (height c)) + 1
  | .intrinsic _ a | .channel _ a => height a + 1

/-- The numbers in a node. -/
def numbers : Node → List Binary64
  | .coord | .uniform _ => []
  | .literal v => [v]
  | .vec2 x y => x :: y.toList
  | .arithmetic _ a b | .step a b => numbers a ++ numbers b
  | .smoothstep a b c => numbers a ++ (numbers b ++ numbers c)
  | .intrinsic _ a | .channel _ a => numbers a

/-- The values that stand for a node: objects with the kind and the fields, in any order. A second
coordinate that is not given may be left out. -/
inductive Written : Node → Value → Prop
  | coord {ms : List (String × Value)} (h : ms.Perm [(tag, .string "frag_coord")]) :
    Written .coord (.object ms)
  | uniform {name : String} {ms : List (String × Value)}
    (h : ms.Perm [(tag, .string "uniform"), ("name", .string name)]) :
    Written (.uniform name) (.object ms)
  | literal {x : Binary64} {ms : List (String × Value)}
    (h : ms.Perm [(tag, .string "literal"), ("value", .float x)]) :
    Written (.literal x) (.object ms)
  | vec2 {x : Binary64} {y : Option Binary64} {ms : List (String × Value)}
    (h : ms.Perm [(tag, .string "vec2"), ("x", .float x), ("y", (y.map .float).getD .null)]) :
    Written (.vec2 x y) (.object ms)
  | vec2Short {x : Binary64} {ms : List (String × Value)}
    (h : ms.Perm [(tag, .string "vec2"), ("x", .float x)]) :
    Written (.vec2 x none) (.object ms)
  | arithmetic {op : Arithmetic} {lhs rhs : Node} {a b : Value} {ms : List (String × Value)}
    (ha : Written lhs a) (hb : Written rhs b)
    (h : ms.Perm [(tag, .string op.name), ("lhs", a), ("rhs", b)]) :
    Written (.arithmetic op lhs rhs) (.object ms)
  | intrinsic {fn : Intrinsic} {arg : Node} {a : Value} {ms : List (String × Value)}
    (ha : Written arg a) (h : ms.Perm [(tag, .string fn.name), ("arg", a)]) :
    Written (.intrinsic fn arg) (.object ms)
  | step {arg edge : Node} {a b : Value} {ms : List (String × Value)}
    (ha : Written arg a) (hb : Written edge b)
    (h : ms.Perm [(tag, .string "step"), ("arg", a), ("edge", b)]) :
    Written (.step arg edge) (.object ms)
  | smoothstep {arg edge₀ edge₁ : Node} {a b c : Value} {ms : List (String × Value)}
    (ha : Written arg a) (hb : Written edge₀ b) (hc : Written edge₁ c)
    (h : ms.Perm [(tag, .string "smoothstep"), ("arg", a), ("edge0", b), ("edge1", c)]) :
    Written (.smoothstep arg edge₀ edge₁) (.object ms)
  | channel {c : Channel} {arg : Node} {a : Value} {ms : List (String × Value)}
    (ha : Written arg a) (h : ms.Perm [(tag, .string c.name), ("arg", a)]) :
    Written (.channel c arg) (.object ms)

theorem written_toJson (n : Node) : n.Written n.toJson := by
  induction n with
  | coord => exact .coord (.refl _)
  | uniform name => exact .uniform (.refl _)
  | literal v => exact .literal (.refl _)
  | vec2 x y => exact .vec2 (.refl _)
  | arithmetic op lhs rhs ihl ihr => exact .arithmetic ihl ihr (.refl _)
  | intrinsic fn arg ih => exact .intrinsic ih (.refl _)
  | step arg edge iha ihe => exact .step iha ihe (.refl _)
  | smoothstep arg edge₀ edge₁ iha ih₀ ih₁ => exact .smoothstep iha ih₀ ih₁ (.refl _)
  | channel c arg ih => exact .channel ih (.refl _)

/-- A number is equal to what is read for its text. What is not finite has no such text. -/
def ReadsBack (x : Binary64) : Prop :=
  ∃ v y, readValue depthLimit (numberText x).toList = .ok (v, []) ∧ Draft.numberOf v = .ok y ∧
    y.equals x = true

/-! ## Nodes from values -/

/-- Members that are read, value by value, with room for `room` containers in each. -/
abbrev MembersAs (room : Nat) : List (String × Value) → List (String × Value) → Prop :=
  List.Forall₂ fun m w => m.1 = w.1 ∧ ReadAs room m.2 w.2

/-- The members of the object of a node of the kind `k`, which are read as the node `n`. -/
structure Understood (room : Nat) (k : Kind) (ms : List (String × Value)) (n : Node) : Prop where
  keys : (ms.map (·.1)).Nodup
  tagged : (tag, .string k.name) ∈ ms
  read : ∃ ws, MembersAs room ms ws ∧ (draftOfMembers k {} ws).bind (·.complete k) = .ok n

section Forall₂

variable {α β : Type} {R : α → β → Prop} {l : List α} {l' : List β}

theorem exists_mem_right (h : List.Forall₂ R l l') {x : α} (hx : x ∈ l) : ∃ y ∈ l', R x y := by
  induction h with
  | nil => cases hx
  | cons hxy _ ih =>
    obtain rfl | hx := List.mem_cons.1 hx
    · exact ⟨_, List.mem_cons_self, hxy⟩
    · obtain ⟨y, hy, hxy⟩ := ih hx
      exact ⟨y, List.mem_cons_of_mem _ hy, hxy⟩

theorem exists_mem_left (h : List.Forall₂ R l l') {y : β} (hy : y ∈ l') : ∃ x ∈ l, R x y :=
  exists_mem_right h.flip hy

theorem map_eq_of_forall₂ {γ : Type} (h : List.Forall₂ R l l') {f : α → γ} {g : β → γ}
    (hR : ∀ x y, R x y → f x = g y) : l.map f = l'.map g := by
  induction h with
  | nil => rfl
  | cons hxy _ ih => rw [List.map_cons, List.map_cons, hR _ _ hxy, ih]

end Forall₂

theorem MembersAs.keys {room : Nat} {ms ws : List (String × Value)} (h : MembersAs room ms ws) :
    ms.map (·.1) = ws.map (·.1) :=
  map_eq_of_forall₂ h fun _ _ hm => hm.1

/-- The object of such members is read as the node. -/
theorem Understood.ofValue {room : Nat} {k : Kind} {ms : List (String × Value)} {n : Node}
    (h : Understood room k ms n) :
    ∃ w, ReadAs (room + 1) (.object ms) w ∧ Node.ofValue w = .ok n := by
  obtain ⟨ws, hws, hread⟩ := h.read
  refine ⟨.object ws, by simpa only [ReadAs] using hws, ?_⟩
  obtain ⟨⟨key, w⟩, hw, hkey : tag = key, hstring⟩ := exists_mem_right hws h.tagged
  simp only [ReadAs] at hstring
  subst hkey hstring
  have hkeys : (ws.map (·.1)).Nodup := MembersAs.keys hws ▸ h.keys
  rw [Node.ofValue, kindOfMembers_eq hkeys hw]
  exact hread

/-- What is read for the value of a field holds `s`. -/
def Holds (room : Nat) (m : String × Value) (s : String × Slot) : Prop :=
  m.1 = s.1 ∧ ∃ w, ReadAs room m.2 w ∧ Draft.slotOf m.1 w (Node.ofValue w) = .ok s.2

theorem exists_membersAs {room : Nat} {fs : List (String × Value)} {slots : List (String × Slot)}
    (h : List.Forall₂ (Holds room) fs slots) : ∃ ws, MembersAs room fs ws ∧ List.Forall₂
      (fun w s => w.1 = s.1 ∧ Draft.slotOf w.1 w.2 (Node.ofValue w.2) = .ok s.2) ws slots := by
  induction h with
  | nil => exact ⟨[], .nil, .nil⟩
  | @cons m s fs slots hm _ ih =>
    obtain ⟨hname, w, hw, hs⟩ := hm
    obtain ⟨ws, hws, hslots⟩ := ih
    exact ⟨(m.1, w) :: ws, .cons ⟨rfl, hw⟩ hws, .cons ⟨hname, hs⟩ hslots⟩

/-- **A node from its fields**, in whatever order they and the kind stand. -/
theorem Understood.of_fields {room : Nat} {k : Kind} {ms fs : List (String × Value)}
    {slots : List (String × Slot)} {n : Node} (hms : ms.Perm ((tag, .string k.name) :: fs))
    (hholds : List.Forall₂ (Holds room) fs slots) (hfields : (slots.map (·.1)).Sublist k.fields)
    (hcomplete : ∀ d : Draft, (∀ s ∈ slots, d.slot s.1 = some s.2) →
      (∀ field ∈ k.fields, field ∉ slots.map (·.1) → d.slot field = none) →
      d.complete k = .ok n) :
    Understood room k ms n := by
  obtain ⟨ws, hread, hslots⟩ := exists_membersAs hholds
  have hnames : ws.map (·.1) = slots.map (·.1) := map_eq_of_forall₂ hslots fun _ _ hs => hs.1
  have hnotTag : tag ∉ slots.map (·.1) := fun h => k.tag_not_mem_fields (hfields.subset h)
  have hfs : fs.map (·.1) = slots.map (·.1) := by rw [MembersAs.keys hread, hnames]
  have hkeys : (ms.map (·.1)).Nodup := by
    rw [(hms.map (·.1)).nodup_iff, List.map_cons, hfs, List.nodup_cons]
    exact ⟨hnotTag, k.nodup_fields.sublist hfields⟩
  have htagged : MembersAs room ((tag, .string k.name) :: fs) ((tag, .string k.name) :: ws) :=
    .cons ⟨rfl, by simp only [ReadAs]⟩ hread
  obtain ⟨ws', hws', hperm⟩ := List.perm_comp_forall₂ hms htagged
  have hmem {m : String × Value} (hm : m ∈ ws') (hfield : m.1 ∈ k.fields) : m ∈ ws := by
    obtain rfl | hm := List.mem_cons.1 (hperm.mem_iff.1 hm)
    · exact absurd hfield k.tag_not_mem_fields
    · exact hm
  have hkeys' : (ws'.map (·.1)).Nodup := MembersAs.keys hws' ▸ hkeys
  obtain ⟨d, hd, hin, hout⟩ := draftOfMembers_eq (k := k) (d := {}) hkeys'
    (fun m _ => Draft.slot_empty m.1) fun m hm hfield => by
      obtain ⟨s, -, -, hs⟩ := exists_mem_right hslots (hmem hm hfield)
      exact ⟨s.2, hs⟩
  refine ⟨hkeys, hms.mem_iff.2 List.mem_cons_self, ws', hws', ?_⟩
  rw [hd]
  refine hcomplete d (fun s hs => ?_) fun field hfield hnot => ?_
  · obtain ⟨w, hw, hname, hslot⟩ := exists_mem_left hslots hs
    have hw' : w ∈ ws' := hperm.mem_iff.2 (List.mem_cons_of_mem _ hw)
    have hfield : w.1 ∈ k.fields := hname ▸ hfields.subset (List.mem_map_of_mem hs)
    exact hname ▸ hin w hw' hfield s.2 hslot
  · rw [hout field, Draft.slot_empty]
    rw [(hperm.map (·.1)).mem_iff, List.map_cons, hnames]
    refine List.not_mem_cons_of_ne_of_not_mem ?_ hnot
    rintro rfl
    exact k.tag_not_mem_fields hfield

theorem holds_text (room : Nat) (s : String) :
    Holds room ("name", .string s) ("name", .text s) :=
  ⟨rfl, .string s, by simp only [ReadAs], rfl⟩

/-- `v` is an object that is read as `n`, up to the signs of zeros, if there is room. -/
def IsUnderstood (n : Node) (v : Value) : Prop :=
  ∀ {room : Nat}, n.height ≤ room + 1 →
    ∃ ms n', v = .object ms ∧ Understood room n.kind ms n' ∧ n'.equals n = true

theorem height_pos (n : Node) : 0 < n.height := by
  cases n <;> simp [height]

/-- A node in a field of another one. -/
theorem IsUnderstood.holds {n : Node} {v : Value} (h : IsUnderstood n v) {room : Nat}
    (hroom : n.height ≤ room) (field : String)
    (hfield : ∀ w node, Draft.slotOf field w node = node.map .node) :
    ∃ n', Holds room (field, v) (field, .node n') ∧ n'.equals n = true := by
  have hpos : 0 < room := Nat.lt_of_lt_of_le n.height_pos hroom
  obtain ⟨room, rfl⟩ := Nat.exists_eq_succ_of_ne_zero (Nat.ne_of_gt hpos)
  obtain ⟨ms, n', rfl, hn', hequals⟩ := h hroom
  obtain ⟨w, hw, hof⟩ := hn'.ofValue
  exact ⟨n', ⟨rfl, w, hw, by rw [hfield, hof]; rfl⟩, hequals⟩

theorem ReadsBack.readAs {x : Binary64} (h : ReadsBack x) (room : Nat) :
    ∃ w y, ReadAs room (.float x) w ∧ Draft.numberOf w = .ok y ∧
      Draft.optionalOf w = .ok (some y) ∧ y.equals x = true := by
  obtain ⟨w, y, hread, hy, hequals⟩ := h
  cases w with
  | integer i =>
    refine ⟨_, y, by simp only [ReadAs]; exact ⟨trivial, hread⟩, hy, ?_, hequals⟩
    simp only [Draft.optionalOf, hy, Except.map]
  | float z =>
    refine ⟨_, y, by simp only [ReadAs]; exact ⟨trivial, hread⟩, hy, ?_, hequals⟩
    simp only [Draft.optionalOf, hy, Except.map]
  | _ => cases hy

theorem ReadsBack.holds {x : Binary64} (h : ReadsBack x) (room : Nat) (field : String)
    (hfield : ∀ w node, Draft.slotOf field w node = (Draft.numberOf w).map .number) :
    ∃ y, Holds room (field, .float x) (field, .number y) ∧ y.equals x = true := by
  obtain ⟨w, y, hw, hy, -, hequals⟩ := h.readAs room
  exact ⟨y, ⟨rfl, w, hw, by rw [hfield, hy]; rfl⟩, hequals⟩

/-- The second coordinate, if it is not left out. -/
theorem holds_optional {y : Option Binary64} (h : ∀ x ∈ y, ReadsBack x) (room : Nat) :
    ∃ y', Holds room ("y", (y.map .float).getD .null) ("y", .optional y') ∧
      sameNumber y' y = true := by
  cases y with
  | none => exact ⟨none, ⟨rfl, .null, by simp [ReadAs], rfl⟩, rfl⟩
  | some x =>
    obtain ⟨w, y, hw, -, hy, hequals⟩ := (h x rfl).readAs room
    exact ⟨some y, ⟨rfl, w, hw, by simp only [Draft.slotOf, hy]; rfl⟩, hequals⟩

/-- **A node is read from every value that stands for it**, if there is room. -/
theorem Written.isUnderstood {n : Node} {v : Value} (h : n.Written v)
    (hnumbers : ∀ x ∈ n.numbers, ReadsBack x) : IsUnderstood n v := by
  intro room hroom
  induction h generalizing room with
  | @coord ms h =>
    exact ⟨ms, .coord, rfl, .of_fields h .nil (List.nil_sublist _) fun d _ _ => rfl, rfl⟩
  | @uniform name ms h =>
    refine ⟨ms, .uniform name, rfl, ?_, by simp [equals]⟩
    refine .of_fields h (.cons (holds_text room name) .nil) (.refl _) fun d hd _ => ?_
    have hname : d.name = some name := by simpa [Draft.slot] using hd
    simp only [kind, Draft.complete, hname, requireField, bind, Except.bind, pure, Except.pure]
  | @literal x ms h =>
    have hx : ReadsBack x := hnumbers x (by simp [numbers])
    obtain ⟨y, hy, hequals⟩ := hx.holds room "value" fun _ _ => rfl
    refine ⟨ms, .literal y, rfl, ?_, hequals⟩
    refine .of_fields h (.cons hy .nil) (.refl _) fun d hd _ => ?_
    have hvalue : d.value = some y := by simpa [Draft.slot] using hd
    simp only [kind, Draft.complete, hvalue, requireField, bind, Except.bind, pure, Except.pure]
  | @vec2 x y ms h =>
    have hx : ReadsBack x := hnumbers x (by simp [numbers])
    have hy : ∀ z ∈ y, ReadsBack z := fun z hz =>
      hnumbers z (by simp [numbers, Option.mem_def.1 hz])
    obtain ⟨x', hx', hxequals⟩ := hx.holds room "x" fun _ _ => rfl
    obtain ⟨y', hy', hyequals⟩ := holds_optional hy room
    refine ⟨ms, .vec2 x' y', rfl, ?_, by simp [equals, hxequals, hyequals]⟩
    refine .of_fields h (.cons hx' (.cons hy' .nil)) (.refl _) fun d hd _ => ?_
    obtain ⟨hdx, hdy⟩ : d.x = some x' ∧ d.y = some y' := by simpa [Draft.slot] using hd
    simp only [kind, Draft.complete, hdx, hdy, requireField, bind, Except.bind, pure, Except.pure,
      Option.getD_some]
  | @vec2Short x ms h =>
    have hx : ReadsBack x := hnumbers x (by simp [numbers])
    obtain ⟨x', hx', hxequals⟩ := hx.holds room "x" fun _ _ => rfl
    refine ⟨ms, .vec2 x' none, rfl, ?_, by simp [equals, hxequals, sameNumber]⟩
    refine .of_fields h (.cons hx' .nil) (by simp [kind, Kind.fields]) fun d hd hnone => ?_
    have hdx : d.x = some x' := by simpa [Draft.slot] using hd
    -- the field that is left out is still empty
    have hdy : d.y = none := by
      simpa [Draft.slot] using hnone "y" (by simp [kind, Kind.fields]) (by simp)
    simp only [kind, Draft.complete, hdx, hdy, requireField, bind, Except.bind, pure, Except.pure,
      Option.getD_none]
  | @arithmetic op lhs rhs a b ms _ _ h ihl ihr =>
    simp only [height, numbers, Nat.add_le_add_iff_right, Nat.max_le, List.mem_append]
      at hroom hnumbers
    have hlhs : IsUnderstood lhs a := ihl fun x hx => hnumbers x (.inl hx)
    have hrhs : IsUnderstood rhs b := ihr fun x hx => hnumbers x (.inr hx)
    obtain ⟨l, hl, hlequals⟩ := hlhs.holds hroom.1 "lhs" fun _ _ => rfl
    obtain ⟨r, hr, hrequals⟩ := hrhs.holds hroom.2 "rhs" fun _ _ => rfl
    refine ⟨ms, .arithmetic op l r, rfl, ?_, by simp [equals, hlequals, hrequals]⟩
    refine .of_fields h (.cons hl (.cons hr .nil)) (.refl _) fun d hd _ => ?_
    obtain ⟨hdl, hdr⟩ : d.lhs = some l ∧ d.rhs = some r := by simpa [Draft.slot] using hd
    simp only [kind, Draft.complete, hdl, hdr, requireField, bind, Except.bind, pure, Except.pure]
  | @intrinsic fn arg a ms _ h ih =>
    simp only [height, numbers, Nat.add_le_add_iff_right] at hroom hnumbers
    have harg : IsUnderstood arg a := ih hnumbers
    obtain ⟨n', hn', hequals⟩ := harg.holds hroom "arg" fun _ _ => rfl
    refine ⟨ms, .intrinsic fn n', rfl, ?_, by simp [equals, hequals]⟩
    refine .of_fields h (.cons hn' .nil) (.refl _) fun d hd _ => ?_
    have hdn : d.arg = some n' := by simpa [Draft.slot] using hd
    simp only [kind, Draft.complete, hdn, requireField, bind, Except.bind, pure, Except.pure]
  | @step arg edge a b ms _ _ h iha ihe =>
    simp only [height, numbers, Nat.add_le_add_iff_right, Nat.max_le, List.mem_append]
      at hroom hnumbers
    have harg : IsUnderstood arg a := iha fun x hx => hnumbers x (.inl hx)
    have hedge : IsUnderstood edge b := ihe fun x hx => hnumbers x (.inr hx)
    obtain ⟨n₀, hn₀, hequals₀⟩ := harg.holds hroom.1 "arg" fun _ _ => rfl
    obtain ⟨n₁, hn₁, hequals₁⟩ := hedge.holds hroom.2 "edge" fun _ _ => rfl
    refine ⟨ms, .step n₀ n₁, rfl, ?_, by simp [equals, hequals₀, hequals₁]⟩
    refine .of_fields h (.cons hn₀ (.cons hn₁ .nil)) (.refl _) fun d hd _ => ?_
    obtain ⟨hd₀, hd₁⟩ : d.arg = some n₀ ∧ d.edge = some n₁ := by simpa [Draft.slot] using hd
    simp only [kind, Draft.complete, hd₀, hd₁, requireField, bind, Except.bind, pure, Except.pure]
  | @smoothstep arg edge₀ edge₁ a b c ms _ _ _ h iha ih₀ ih₁ =>
    simp only [height, numbers, Nat.add_le_add_iff_right, Nat.max_le, List.mem_append]
      at hroom hnumbers
    have harg : IsUnderstood arg a := iha fun x hx => hnumbers x (.inl hx)
    have hedge₀ : IsUnderstood edge₀ b := ih₀ fun x hx => hnumbers x (.inr (.inl hx))
    have hedge₁ : IsUnderstood edge₁ c := ih₁ fun x hx => hnumbers x (.inr (.inr hx))
    obtain ⟨n₀, hn₀, hequals₀⟩ := harg.holds hroom.1 "arg" fun _ _ => rfl
    obtain ⟨n₁, hn₁, hequals₁⟩ := hedge₀.holds hroom.2.1 "edge0" fun _ _ => rfl
    obtain ⟨n₂, hn₂, hequals₂⟩ := hedge₁.holds hroom.2.2 "edge1" fun _ _ => rfl
    refine ⟨ms, .smoothstep n₀ n₁ n₂, rfl, ?_, by simp [equals, hequals₀, hequals₁, hequals₂]⟩
    refine .of_fields h (.cons hn₀ (.cons hn₁ (.cons hn₂ .nil))) (.refl _) fun d hd _ => ?_
    obtain ⟨hd₀, hd₁, hd₂⟩ : d.arg = some n₀ ∧ d.edge₀ = some n₁ ∧ d.edge₁ = some n₂ := by
      simpa [Draft.slot] using hd
    simp only [kind, Draft.complete, hd₀, hd₁, hd₂, requireField, bind, Except.bind, pure,
      Except.pure]
  | @channel c arg a ms _ h ih =>
    simp only [height, numbers, Nat.add_le_add_iff_right] at hroom hnumbers
    have harg : IsUnderstood arg a := ih hnumbers
    obtain ⟨n', hn', hequals⟩ := harg.holds hroom "arg" fun _ _ => rfl
    refine ⟨ms, .channel c n', rfl, ?_, by simp [equals, hequals]⟩
    refine .of_fields h (.cons hn' .nil) (.refl _) fun d hd _ => ?_
    have hdn : d.arg = some n' := by simpa [Draft.slot] using hd
    simp only [kind, Draft.complete, hdn, requireField, bind, Except.bind, pure, Except.pure]

/-! ## The outermost node -/

theorem reads_readKind (k : Kind) : Reads readKind [writeString k.name] k := by
  intro more cs _ hcs
  obtain ⟨cs', rest, hskip, hread, hrest⟩ := Spaced.next_string hcs
  refine ⟨rest, ?_, hrest⟩
  simp only [readKind, readText, hskip, if_true, hread, bind, Except.bind, k.ofName_name, placed]
  rfl

theorem reads_readMember_tag (room : Nat) (k : Kind) {o : Outline} (ho : o.kind = none) :
    Reads (readMember room tag o) ([':'] :: tokens (.string k.name)) { o with kind := some k } := by
  intro more cs hmore hcs
  obtain ⟨rest, hread, hrest⟩ := (reads_readKind k).afterColon more cs hmore hcs
  refine ⟨rest, ?_, hrest⟩
  have hfield : readField tag o.kind.isSome readKind cs = .ok (k, rest) := by
    rw [ho]
    exact hread
  simp only [readMember, if_true, hfield, Except.map]

theorem reads_readMember {room : Nat} {key : String} (hkey : key ≠ tag) {v w : Value}
    (h : ReadAs room v w) (o : Outline) :
    Reads (readMember room key o) ([':'] :: tokens v)
      { o with members := (key, w) :: o.members } := by
  have hvalue := (reads_readValue h).map fun v => { o with members := (key, v) :: o.members }
  intro more cs hmore hcs
  obtain ⟨rest, hread, hrest⟩ := hvalue.afterColon more cs hmore hcs
  refine ⟨rest, ?_, hrest⟩
  rw [readMember, if_neg hkey]
  exact hread

/-- The members of the outermost node are read: its kind, which is named once, and the others. -/
theorem membersRead_readMember {room : Nat} {k : Kind} {ms ws : List (String × Value)}
    (h : MembersAs room ms ws) (hkeys : (ms.map (·.1)).Nodup)
    (htag : ∀ v, (tag, v) ∈ ms → v = .string k.name) {o : Outline}
    (ho : tag ∈ ms.map (·.1) → o.kind = none) :
    MembersRead (readMember room) o ms
      { kind := if tag ∈ ms.map (·.1) then some k else o.kind
        members := (ws.filter (·.1 ≠ tag)).reverse ++ o.members } := by
  induction h generalizing o with
  | nil => exact .nil o
  | @cons m w ms ws hm _ ih =>
    obtain ⟨key, v⟩ := m
    obtain ⟨key', w⟩ := w
    obtain ⟨hname : key = key', hw⟩ := hm
    subst hname
    obtain ⟨hnot, hkeys'⟩ := List.nodup_cons.1 hkeys
    have hkey : key ∉ ms.map (·.1) := hnot
    have htag' : ∀ v, (tag, v) ∈ ms → v = .string k.name :=
      fun v hv => htag v (List.mem_cons_of_mem _ hv)
    by_cases he : key = tag
    · subst he
      obtain rfl : v = .string k.name := htag v List.mem_cons_self
      have hnone : o.kind = none := ho List.mem_cons_self
      refine .cons (reads_readMember_tag room k hnone) ?_
      have hrest := ih hkeys' htag' (o := { o with kind := some k }) fun h => absurd h hkey
      rw [if_neg hkey] at hrest
      have hmem : tag ∈ ((tag, .string k.name) :: ms).map (·.1) := List.mem_cons_self
      rw [if_pos hmem, List.filter_cons_of_neg (by simp)]
      exact hrest
    · refine .cons (reads_readMember he hw o) ?_
      have hnone : tag ∈ ms.map (·.1) → o.kind = none := fun h => ho (List.mem_cons_of_mem _ h)
      have hrest := ih hkeys' htag' (o := { o with members := (key, w) :: o.members }) hnone
      have hmem : tag ∈ ((key, v) :: ms).map (·.1) ↔ tag ∈ ms.map (·.1) := by
        rw [List.map_cons, List.mem_cons, or_iff_right (Ne.symm he)]
      rw [List.filter_cons_of_pos (by simpa using he), List.reverse_cons, List.append_assoc]
      simp only [hmem]
      exact hrest

/-- **The outermost node is read** from its members in any order. -/
theorem Understood.reads {room : Nat} {k : Kind} {ms : List (String × Value)} {n : Node}
    (h : Understood room k ms n) : Reads (Node.read (room + 1)) (tokens (.object ms)) (.ok n) := by
  obtain ⟨ws, hws, hread⟩ := h.read
  have htag : ∀ v, (tag, v) ∈ ms → v = .string k.name := fun v hv =>
    congrArg Prod.snd (List.inj_on_of_nodup_map h.keys hv h.tagged rfl)
  have hmem : tag ∈ ms.map (·.1) := List.mem_map_of_mem (f := (·.1)) h.tagged
  have hmembers := membersRead_readMember hws h.keys htag (o := {}) fun _ => rfl
  rw [if_pos hmem, List.append_nil] at hmembers
  have hobject : Reads (readObject room) (memberTokens true ms ++ [['\x7d']]) (.ok n) := by
    refine (reads_readMembers hmembers).followed fun rest => ?_
    have hfields : (draftOfMembers k {} (ws.filter (·.1 ≠ tag)).reverse.reverse).bind
        (·.complete k) = .ok n := by
      rw [List.reverse_reverse, draftOfMembers_filter]
      exact hread
    rw [← hfields]
    rfl
  exact hobject.record _

end Node

/-! ## Graphs -/

theorem reads_type (room : Nat) (t : Ty) : Reads (Ty.read room) [writeString t.keyword] t := by
  intro more cs _ hcs
  obtain ⟨cs', rest, hskip, hread, hrest⟩ := Spaced.next_string hcs
  refine ⟨rest, ?_, hrest⟩
  have ht : Ty.ofKeyword? t.keyword = some t := Ty.ofKeyword?_eq_some_iff.2 rfl
  simp only [Ty.read, readChoice, hskip, if_true, hread, bind, Except.bind, pick, ht, placed]
  rfl

namespace Graph

/-- The uniforms of a graph as a value. -/
def uniformsJson (uniforms : List Var) : Value :=
  .object (uniforms.map fun v => (v.name, v.ty.toJson))

/-- The values that stand for a graph: its members in either order. Without uniforms, their member may
be left out. -/
inductive Written (g : Graph) : Value → Prop
  | both {v : Value} {ms : List (String × Value)} (hmain : g.main.Written v)
    (h : ms = [("uniforms", uniformsJson g.uniforms), ("main", v)] ∨
      ms = [("main", v), ("uniforms", uniformsJson g.uniforms)]) : Written g (.object ms)
  | short {v : Value} (hu : g.uniforms = []) (hmain : g.main.Written v) :
    Written g (.object [("main", v)])

/-- The documents of a graph: a value that stands for it, with any blanks between its tokens. -/
def IsLayout (g : Graph) (text : String) : Prop :=
  ∃ v, g.Written v ∧ Spaced (tokens v) text.toList

theorem isLayout_compact {g : Graph} {v : Value} (h : g.Written v) : g.IsLayout (compact v) := by
  refine ⟨v, h, ?_⟩
  rw [compact, String.toList_ofList]
  exact spaced_writeValue v

theorem isLayout_pretty {g : Graph} {v : Value} (h : g.Written v) : g.IsLayout (pretty v) := by
  refine ⟨v, h, ?_⟩
  have hspaced := spaced_writeIndented 0 v (.nil blanks_nil)
  rw [List.append_nil, List.append_nil] at hspaced
  rw [pretty, String.toList_ofList]
  exact hspaced

theorem membersRead_readUniform (room : Nat) (uniforms before : List Var) :
    MembersRead (readUniform room) before (uniforms.map fun v => (v.name, v.ty.toJson))
      (before ++ uniforms) := by
  induction uniforms generalizing before with
  | nil =>
    rw [List.append_nil]
    exact .nil before
  | cons v uniforms ih =>
    have hv := (reads_type room v.ty).map fun ty => before ++ [Var.mk v.name ty]
    rw [List.append_cons]
    exact .cons hv.afterColon (ih (before ++ [v]))

theorem reads_readUniforms (room : Nat) (uniforms : List Var) :
    Reads (readUniforms (room + 1)) (tokens (uniformsJson uniforms)) uniforms := by
  refine (reads_readMembers (membersRead_readUniform room uniforms [])).inBraces
    fun cs rest hskip => ?_
  simp [readUniforms, hskip, inRoom]

/-- The main node is read from every value that stands for it. -/
theorem reads_readMain {n : Node} {v : Value} (h : n.Written v)
    (hnumbers : ∀ x ∈ n.numbers, Node.ReadsBack x) {room : Nat} (hroom : n.height ≤ room + 1) :
    ∃ n', Reads (readMain (room + 1)) (tokens v) n' ∧ n'.equals n = true := by
  obtain ⟨ms, n', rfl, hn', hequals⟩ := h.isUnderstood hnumbers hroom
  exact ⟨n', hn'.reads.followed fun _ => rfl, hequals⟩

theorem reads_readMember_uniforms {room : Nat} {uniforms : List Var} {v : Value}
    (h : Reads (readUniforms room) (tokens v) uniforms) {d : Draft} (hd : d.uniforms = none) :
    Reads (readMember room "uniforms" d) ([':'] :: tokens v)
      { d with uniforms := some uniforms } := by
  intro more cs hmore hcs
  obtain ⟨rest, hread, hrest⟩ := h.afterColon more cs hmore hcs
  refine ⟨rest, ?_, hrest⟩
  have hfield : readField "uniforms" d.uniforms.isSome (readUniforms room) cs =
      .ok (uniforms, rest) := by
    rw [hd]
    exact hread
  simp only [readMember, if_true, hfield, Except.map]

theorem reads_readMember_main {room : Nat} {n : Node} {v : Value}
    (h : Reads (readMain room) (tokens v) n) {d : Draft} (hd : d.main = none) :
    Reads (readMember room "main" d) ([':'] :: tokens v) { d with main := some n } := by
  intro more cs hmore hcs
  obtain ⟨rest, hread, hrest⟩ := h.afterColon more cs hmore hcs
  refine ⟨rest, ?_, hrest⟩
  have hfield : readField "main" d.main.isSome (readMain room) cs = .ok (n, rest) := by
    rw [hd]
    exact hread
  have hne : ¬ "main" = "uniforms" := by decide
  simp only [readMember, if_neg hne, if_true, hfield, Except.map]

/-- **A graph is read from every value that stands for it.** -/
theorem reads_graph {g : Graph} {v : Value} (h : g.Written v)
    (hnumbers : ∀ x ∈ g.main.numbers, Node.ReadsBack x) {room : Nat}
    (hroom : g.main.height ≤ room + 1) :
    ∃ n', Reads (read (room + 2)) (tokens v) ⟨g.uniforms, n'⟩ ∧ n'.equals g.main = true := by
  have hread (us : Option (List Var)) {ms : List (String × Value)} {n' : Node}
      (hms : MembersRead (readMember (room + 1)) {} ms ⟨us, some n'⟩)
      (hus : us.getD [] = g.uniforms) :
      Reads (read (room + 2)) (tokens (.object ms)) ⟨g.uniforms, n'⟩ := by
    have hobject : Reads (readObject (room + 1)) (memberTokens true ms ++ [['\x7d']])
        ⟨g.uniforms, n'⟩ := by
      refine (reads_readMembers hms).followed fun rest => ?_
      rw [← hus]
      rfl
    exact hobject.record _
  cases h with
  | @both v ms hmain hms =>
    obtain ⟨n', hn', hequals⟩ := reads_readMain hmain hnumbers hroom
    have hu := reads_readUniforms room g.uniforms
    refine ⟨n', ?_, hequals⟩
    obtain rfl | rfl := hms
    · exact hread (some g.uniforms) (.cons (reads_readMember_uniforms hu rfl)
        (.cons (reads_readMember_main hn' rfl) (.nil _))) rfl
    · exact hread (some g.uniforms) (.cons (reads_readMember_main hn' rfl)
        (.cons (reads_readMember_uniforms hu rfl) (.nil _))) rfl
  | short hu hmain =>
    obtain ⟨n', hn', hequals⟩ := reads_readMain hmain hnumbers hroom
    exact ⟨n', hread none (.cons (reads_readMember_main hn' rfl) (.nil _)) hu.symm, hequals⟩

/-- **Reading undoes writing, whatever the layout.** The document of a graph is one of its layouts, and
every layout is read as a graph with the same uniforms, in the same order and with their repeats, and
with an equal main node. Of the containers that may be open the document itself takes one, so the main
node may have all others; its numbers have to be read back from their texts. -/
theorem reading_undoes_writing {g : Graph} (hheight : g.main.height ≤ 126)
    (hnumbers : ∀ x ∈ g.main.numbers, Node.ReadsBack x) :
    g.IsLayout g.text ∧ ∀ text, g.IsLayout text →
      ∃ g', ofText text = .ok g' ∧ g'.uniforms = g.uniforms ∧ g'.main.equals g.main = true := by
  have htext : g.Written g.toJson := .both (Node.written_toJson g.main) (.inl rfl)
  refine ⟨isLayout_compact htext, fun text htext => ?_⟩
  obtain ⟨v, hv, hspaced⟩ := htext
  have hroom : g.main.height ≤ 125 + 1 := hheight
  obtain ⟨n', hreads, hequals⟩ := reads_graph hv hnumbers hroom
  rw [← List.append_nil (tokens v)] at hspaced
  obtain ⟨rest, hread, hrest⟩ := hreads [] _ closes_nil hspaced
  refine ⟨⟨g.uniforms, n'⟩, ?_, rfl, hequals⟩
  have hblank : skipBlanks rest = [] := by
    cases hrest with
    | nil hb => exact skipBlanks_eq_nil hb
  have hread' : read depthLimit text.toList = .ok (⟨g.uniforms, n'⟩, rest) := hread
  simp only [ofText, readDocument, readWhole, hread', bind, Except.bind, hblank]
  rfl

/-- One half. -/
def half : Binary64 := Binary64.div (.ofNat 1) (.ofNat 2)

theorem readsBack_half : Node.ReadsBack half := by
  have htext : (numberText half).toList = ['0', '.', '5'] := by decide +kernel
  have hparts : ofParts? 5 (-1) = some half := by decide +kernel
  have hscalar : readScalar? ['0', '.', '5'] = some (floatBefore false 5 (-1) []) := rfl
  rw [floatBefore, floatOfParts, hparts] at hscalar
  exact ⟨.float half, half, htext ▸ readValue_of_readScalar? depthLimit hscalar, rfl,
    by decide +kernel⟩

/-- A graph with a repeated uniform, and names that are empty or need escapes. -/
def scaled : Graph :=
  ⟨[⟨"a\"\n", .float⟩, ⟨"", .mat4⟩, ⟨"a\"\n", .vec2⟩],
    .arithmetic .mul (.vec2 half none) (.uniform "\u00e9")⟩

/-- The values of `scaled` with all members in reverse, and without the second coordinate. -/
def scaledReversed : Value :=
  .object [
    ("main", .object [
      ("rhs", .object [("name", .string "\u00e9"), (Node.tag, .string "uniform")]),
      ("lhs", .object [("x", .float half), (Node.tag, .string "vec2")]),
      (Node.tag, .string "mul")]),
    ("uniforms", uniformsJson scaled.uniforms)]

theorem written_scaledReversed : scaled.Written scaledReversed := by
  have hlhs : (Node.vec2 half none).Written
      (.object [("x", .float half), (Node.tag, .string "vec2")]) :=
    .vec2Short (.swap _ _ _)
  have hrhs : (Node.uniform "\u00e9").Written
      (.object [("name", .string "\u00e9"), (Node.tag, .string "uniform")]) :=
    .uniform (.swap _ _ _)
  exact .both (.arithmetic hlhs hrhs (List.reverse_perm [_, _, _])) (.inr rfl)

/-- The document with the members in reverse, on many lines. -/
theorem reading_undoes_writing_reversed :
    scaled.main.height = 2 ∧ ∃ g', ofText (pretty scaledReversed) = .ok g' ∧
      g'.uniforms = scaled.uniforms ∧ g'.main.equals scaled.main = true := by
  have hnumbers : ∀ x ∈ scaled.main.numbers, Node.ReadsBack x := by
    intro x hx
    obtain rfl : x = half := by simpa [scaled, Node.numbers] using hx
    exact readsBack_half
  exact ⟨rfl, (reading_undoes_writing (by decide) hnumbers).2 _
    (isLayout_pretty written_scaledReversed)⟩

end Graph

end Shader
