import Shader.Proofs.Layout

/-!
# Values with arrays are read back

Arrays are laid out and read like objects, element by element. So a value without numbers, whose
containers are not nested too deep, is read back from each of its layouts as itself.

* `Opens`: what an element begins with; **`reads_readElements`**: the elements of an array;
* `Value.Fits`: values without numbers that are nested no deeper than a bound;
  **`reads_of_fits`**: they are read as themselves;
* `readDocument_of_reads`: from readers to documents; **`readDocument_pretty`**: the document of
  such a value on many lines.
-/

namespace Shader.Json

variable {α : Type}

/-! ## Elements -/

/-- That the first token is neither a blank nor the end of an array. -/
def Opens (ts : List (List Char)) : Prop :=
  ∃ c token ts', ts = (c :: token) :: ts' ∧ isBlank c = false ∧ c ≠ ']'

theorem Opens.append {ts : List (List Char)} (h : Opens ts) (more : List (List Char)) :
    Opens (ts ++ more) := by
  obtain ⟨c, token, ts', rfl, hc⟩ := h
  exact ⟨c, token, ts' ++ more, rfl, hc⟩

section Punctuation

variable {ts more : List (List Char)} {cs : List Char}

/-- What begins with an element still does when the blanks before it are passed over. -/
theorem Opens.skipBlanks (h : Opens ts) (hcs : Spaced ts cs) :
    ∃ c rest, Json.skipBlanks cs = c :: rest ∧ c ≠ ']' ∧ Spaced ts (c :: rest) := by
  obtain ⟨c, token, ts', rfl, hblank, hc⟩ := h
  obtain ⟨rest, hskip, hrest⟩ := hcs.next hblank
  exact ⟨c, token ++ rest, hskip, hc, hrest.token (c :: token)⟩

theorem nextElement_of_spaced (first : Bool) (h : Opens ts) (hcs : Spaced (comma first ++ ts) cs) :
    ∃ rest, nextElement first cs = .ok (true, rest) ∧ Spaced ts rest := by
  cases first with
  | true =>
    obtain ⟨c, rest, hskip, hc, hrest⟩ := h.skipBlanks hcs
    exact ⟨c :: rest, by simp [nextElement, hskip, hc], hrest⟩
  | false =>
    have hcs' : Spaced ([','] :: ts) cs := hcs
    obtain ⟨cs', hskip', hcs'⟩ := hcs'.next_char rfl
    obtain ⟨c, rest, hskip, hc, hrest⟩ := h.skipBlanks hcs'
    exact ⟨c :: rest, by simp [nextElement, hskip', hskip, hc], hrest⟩

theorem nextElement_of_closed (first : Bool) (h : Spaced ([']'] :: ts) cs) :
    ∃ rest, nextElement first cs = .ok (false, rest) ∧ Spaced ts rest := by
  obtain ⟨rest, hskip, hrest⟩ := h.next_char rfl
  exact ⟨rest, by simp [nextElement, hskip], hrest⟩

end Punctuation

/-- The reader of elements takes each of the given ones. -/
abbrev ElementsRead (item : Reader α) : List Value → List α → Prop :=
  List.Forall₂ fun v a => Opens (tokens v) ∧ Reads item (tokens v) a

theorem closes_itemTokens (vs : List Value) (more : List (List Char)) :
    Closes (itemTokens false vs ++ [']'] :: more) := by
  cases vs with
  | nil => simp [Closes, itemTokens]
  | cons v vs => simp [Closes, itemTokens, comma]

theorem ElementsRead.length_le {item : Reader α} {vs : List Value} {as : List α}
    (h : ElementsRead item vs as) (first : Bool) :
    vs.length ≤ (itemTokens first vs).flatten.length := by
  induction h generalizing first with
  | nil => exact Nat.zero_le _
  | @cons v a vs as hv _ ih =>
    obtain ⟨⟨c, token, ts, hopens, -⟩, -⟩ := hv
    have := ih false
    simp only [itemTokens, hopens, List.flatten_append, List.flatten_cons, List.length_append,
      List.length_cons]
    omega

theorem elementsFrom_of_spaced {item : Reader α} {vs : List Value} {as : List α}
    (h : ElementsRead item vs as) {steps : List Char} (hsteps : vs.length < steps.length)
    {first : Bool} {more : List (List Char)} {cs : List Char}
    (hcs : Spaced (itemTokens first vs ++ [']'] :: more) cs) :
    ∃ rest, elementsFrom item steps first cs = .ok (as, rest) ∧ Spaced more rest := by
  induction h generalizing steps first cs with
  | nil =>
    cases steps with
    | nil => simp at hsteps
    | cons _ steps =>
      obtain ⟨rest, hnext, hrest⟩ := nextElement_of_closed first hcs
      refine ⟨rest, ?_, hrest⟩
      simp only [elementsFrom, hnext]
      rfl
  | @cons v a vs as hv _ ih =>
    cases steps with
    | nil => simp at hsteps
    | cons _ steps =>
      have hsteps' : vs.length < steps.length := by simpa using hsteps
      have hcs' : Spaced
          (comma first ++ (tokens v ++ (itemTokens false vs ++ [']'] :: more))) cs := by
        simpa [itemTokens] using hcs
      obtain ⟨cs₁, hnext, hcs₁⟩ := nextElement_of_spaced first (hv.1.append _) hcs'
      obtain ⟨cs₂, hitem, hcs₂⟩ := hv.2 _ _ (closes_itemTokens vs more) hcs₁
      obtain ⟨rest, hvs, hrest⟩ := ih hsteps' hcs₂
      refine ⟨rest, ?_, hrest⟩
      simp only [elementsFrom, hnext, bind, Except.bind, if_true, hitem, hvs]
      rfl

/-- **The elements of an array**, behind its bracket. -/
theorem reads_readElements {item : Reader α} {vs : List Value} {as : List α}
    (h : ElementsRead item vs as) :
    Reads (readElements item) (itemTokens true vs ++ [[']']]) as := by
  intro more cs _ hcs
  rw [List.append_assoc] at hcs
  refine elementsFrom_of_spaced h ?_ hcs
  have hlength := hcs.length_le
  have hvs := h.length_le true
  simp only [List.flatten_append, List.flatten_cons, List.length_append, List.length_cons,
    List.singleton_append] at hlength
  omega

/-! ## Values -/

theorem reads_array {room : Nat} {vs ws : List Value}
    (h : ElementsRead (readValue room) vs ws) :
    Reads (readValue (room + 1)) (tokens (.array vs)) (.array ws) := by
  intro more cs hmore hcs
  obtain ⟨cs', hskip, hcs'⟩ := Spaced.next_char hcs rfl
  obtain ⟨rest, hread, hrest⟩ := (reads_readElements h).map Value.array more cs' hmore hcs'
  refine ⟨rest, ?_, hrest⟩
  have hscalar : readScalar? ('[' :: cs') = none := rfl
  simp only [readValue, readBy, hskip, hscalar, if_true]
  exact hread

/-- Values without numbers whose containers are nested no deeper than `room`. -/
def Value.Fits : (room : Nat) → Value → Prop
  | _, .null | _, .bool _ | _, .string _ => True
  | room + 1, .array vs => ∀ v ∈ vs, Fits room v
  | room + 1, .object ms => ∀ m ∈ ms, Fits room m.2
  | _, _ => False

theorem Value.Fits.opens {room : Nat} {v : Value} (h : v.Fits room) : Opens (tokens v) := by
  cases v with
  | integer i => simp [Fits] at h
  | float x => simp [Fits] at h
  | bool b =>
    cases b with
    | false => exact ⟨_, _, _, rfl, by decide, by decide⟩
    | true => exact ⟨_, _, _, rfl, by decide, by decide⟩
  | _ => exact ⟨_, _, _, rfl, by decide, by decide⟩

/-- **A value without numbers is read as itself from all its layouts.** -/
theorem reads_of_fits {room : Nat} {v : Value} (h : v.Fits room) :
    Reads (readValue room) (tokens v) v := by
  induction room generalizing v with
  | zero =>
    cases v with
    | null | bool | string => exact reads_of_not_container (by simp [ReadAs]) (by simp) (by simp)
    | integer | float | array | object => simp [Value.Fits] at h
  | succ room ih =>
    cases v with
    | null | bool | string => exact reads_of_not_container (by simp [ReadAs]) (by simp) (by simp)
    | integer | float => simp [Value.Fits] at h
    | array vs =>
      simp only [Value.Fits] at h
      exact reads_array (List.forall₂_same.2 fun v hv => ⟨(h v hv).opens, ih (h v hv)⟩)
    | object ms =>
      simp only [Value.Fits] at h
      exact reads_object (List.forall₂_same.2 fun m hm => ⟨rfl, ih (h m hm)⟩)

/-! ## Documents -/

/-- A layout of the tokens that a reader takes is a document. -/
theorem readDocument_of_reads {reader : (room : Nat) → Reader α} {ts : List (List Char)} {a : α}
    (h : Reads (reader depthLimit) ts a) {text : String} (htext : Spaced ts text.toList) :
    readDocument reader text = .ok a := by
  rw [← List.append_nil ts] at htext
  obtain ⟨rest, hread, hrest⟩ := h [] _ closes_nil htext
  have hblank : skipBlanks rest = [] := by
    cases hrest with
    | nil hb => exact skipBlanks_eq_nil hb
  simp only [readDocument, readWhole, hread, bind, Except.bind, hblank]
  rfl

/-- **A value on many lines is read back as itself.** -/
theorem readDocument_pretty {v : Value} (h : v.Fits depthLimit) :
    readDocument readValue (pretty v) = .ok v := by
  refine readDocument_of_reads (reads_of_fits h) ?_
  have hspaced := spaced_writeIndented 0 v (Spaced.nil blanks_nil)
  simpa [pretty] using hspaced

end Shader.Json
