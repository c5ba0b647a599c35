import Mathlib.Data.List.Forall2
import Shader.Proofs.Scanning

/-!
# Layouts of values

A value is written as a sequence of tokens. Between tokens blanks may stand, which do not matter to a
reader: the value is read back from every layout.

* `tokens`: the tokens of a value; `Spaced`: texts with given tokens and any blanks between them;
  **`spaced_writeValue`**, `spaced_writeIndented`: the texts of a value on one line and on many;
* `Reads`: a reader answers for given tokens, whatever the blanks and whatever follows;
* `MembersRead`, `reads_readMembers`: the members of an object, one by one;
* `ReadAs`: what is read for a value, numbers being what is read for their texts;
  **`reads_readValue`**: values of objects and scalars.
-/

namespace Shader.Json

variable {α β : Type}

/-! ## Tokens -/

/-- The comma before all elements and members but the first. -/
def comma (first : Bool) : List (List Char) := if first then [] else [[',']]

mutual

/-- The tokens of a value. -/
def tokens : Value → List (List Char)
  | .array items => ['['] :: itemTokens true items ++ [[']']]
  | .object members => ['\x7b'] :: memberTokens true members ++ [['\x7d']]
  | v => [writeScalar v]

/-- The tokens of elements. -/
def itemTokens (first : Bool) : List Value → List (List Char)
  | [] => []
  | v :: vs => comma first ++ tokens v ++ itemTokens false vs

/-- The tokens of members. -/
def memberTokens (first : Bool) : List (String × Value) → List (List Char)
  | [] => []
  | (key, v) :: ms =>
    comma first ++ writeString key :: [':'] :: tokens v ++ memberTokens false ms

end

mutual

/-- Without blanks the tokens are the text on one line. -/
theorem flatten_tokens : (v : Value) → (tokens v).flatten = writeValue v
  | .array items => by simp [tokens, writeValue, flatten_itemTokens items]
  | .object members => by simp [tokens, writeValue, flatten_memberTokens members]
  | .null | .bool _ | .integer _ | .float _ | .string _ => by simp [tokens, writeValue]

theorem flatten_itemTokens : (vs : List Value) → (itemTokens true vs).flatten = writeItems vs
  | [] => rfl
  | [v] => by simp [itemTokens, writeItems, comma, flatten_tokens v]
  | v :: w :: vs => by
    have hrest := flatten_itemTokens (w :: vs)
    simp only [itemTokens, comma] at hrest
    simp [itemTokens, writeItems, comma, flatten_tokens v, ← hrest]

theorem flatten_memberTokens :
    (ms : List (String × Value)) → (memberTokens true ms).flatten = writeMembers ms
  | [] => rfl
  | [(key, v)] => by simp [memberTokens, writeMembers, comma, flatten_tokens v]
  | (key, v) :: (key', w) :: ms => by
    have hrest := flatten_memberTokens ((key', w) :: ms)
    simp only [memberTokens, comma] at hrest
    simp [memberTokens, writeMembers, comma, flatten_tokens v, ← hrest]

end

/-- Nothing but blanks. -/
def Blanks (cs : List Char) : Prop := ∀ c ∈ cs, isBlank c = true

/-- Texts with the given tokens and any blanks between them. -/
inductive Spaced : List (List Char) → List Char → Prop
  | nil {blanks : List Char} (hb : Blanks blanks) : Spaced [] blanks
  | cons {blanks token text : List Char} {ts : List (List Char)} (hb : Blanks blanks)
    (h : Spaced ts text) : Spaced (token :: ts) (blanks ++ (token ++ text))

theorem blanks_nil : Blanks [] := by simp [Blanks]

theorem spaced_flatten (ts : List (List Char)) : Spaced ts ts.flatten := by
  induction ts with
  | nil => exact .nil blanks_nil
  | cons token ts ih => exact .cons blanks_nil ih

/-- **The text of a value is one of its layouts.** -/
theorem spaced_writeValue (v : Value) : Spaced (tokens v) (writeValue v) :=
  flatten_tokens v ▸ spaced_flatten (tokens v)

theorem Spaced.behind {blanks cs : List Char} {ts : List (List Char)} (hb : Blanks blanks)
    (h : Spaced ts cs) : Spaced ts (blanks ++ cs) := by
  have happend {more : List Char} (hmore : Blanks more) : Blanks (blanks ++ more) := fun c hc =>
    (List.mem_append.1 hc).elim (hb c) (hmore c)
  cases h with
  | nil hmore => exact .nil (happend hmore)
  | cons hmore h =>
    rw [← List.append_assoc]
    exact .cons (happend hmore) h

theorem Spaced.token {cs : List Char} {ts : List (List Char)} (token : List Char)
    (h : Spaced ts cs) : Spaced (token :: ts) (token ++ cs) :=
  .cons blanks_nil h

theorem blanks_newLine (level : Nat) : Blanks (newLine level) := by
  intro c hc
  obtain rfl | hc := List.mem_cons.1 hc
  · rfl
  · rw [List.eq_of_mem_replicate hc]
    rfl

mutual

/-- The text on many lines is a layout, too. -/
theorem spaced_writeIndented : (level : Nat) → (v : Value) → {ts : List (List Char)} →
    {cs : List Char} → Spaced ts cs → Spaced (tokens v ++ ts) (writeIndented level v ++ cs)
  | _, .array [], _, _, h => (h.token [']']).token ['[']
  | level, .array (v :: vs), ts, cs, h => by
    have hend := (h.token [']']).behind (blanks_newLine level)
    have hitems := (spaced_writeItemLines (level + 1) (v :: vs) hend).token ['[']
    simpa [tokens, writeIndented] using hitems
  | _, .object [], _, _, h => (h.token ['\x7d']).token ['\x7b']
  | level, .object (m :: ms), ts, cs, h => by
    have hend := (h.token ['\x7d']).behind (blanks_newLine level)
    have hmembers := (spaced_writeMemberLines (level + 1) (m :: ms) hend).token ['\x7b']
    simpa [tokens, writeIndented] using hmembers
  | _, .null, _, _, h => h.token _
  | _, .bool _, _, _, h => h.token _
  | _, .integer _, _, _, h => h.token _
  | _, .float _, _, _, h => h.token _
  | _, .string _, _, _, h => h.token _

theorem spaced_writeItemLines : (level : Nat) → (vs : List Value) → {ts : List (List Char)} →
    {cs : List Char} → Spaced ts cs →
    Spaced (itemTokens true vs ++ ts) (writeItemLines level vs ++ cs)
  | _, [], _, _, h => h
  | level, [v], ts, cs, h => by
    have hv := (spaced_writeIndented level v h).behind (blanks_newLine level)
    simpa [itemTokens, comma, writeItemLines] using hv
  | level, v :: w :: vs, ts, cs, h => by
    have hrest := (spaced_writeItemLines level (w :: vs) h).token [',']
    have hv := (spaced_writeIndented level v hrest).behind (blanks_newLine level)
    simpa [itemTokens, comma, writeItemLines] using hv

theorem spaced_writeMemberLines : (level : Nat) → (ms : List (String × Value)) →
    {ts : List (List Char)} → {cs : List Char} → Spaced ts cs →
    Spaced (memberTokens true ms ++ ts) (writeMemberLines level ms ++ cs)
  | _, [], _, _, h => h
  | level, [(key, v)], ts, cs, h => by
    have hblank : Blanks [' '] := by simp [Blanks, isBlank]
    have hv := ((spaced_writeIndented level v h).behind hblank).token [':']
    have hmember := (hv.token (writeString key)).behind (blanks_newLine level)
    simpa [memberTokens, comma, writeMemberLines] using hmember
  | level, (key, v) :: (key', w) :: ms, ts, cs, h => by
    have hblank : Blanks [' '] := by simp [Blanks, isBlank]
    have hrest := (spaced_writeMemberLines level ((key', w) :: ms) h).token [',']
    have hv := ((spaced_writeIndented level v hrest).behind hblank).token [':']
    have hmember := (hv.token (writeString key)).behind (blanks_newLine level)
    simpa [memberTokens, comma, writeMemberLines] using hmember

end

section Spaced

variable {ts more : List (List Char)} {token cs rest : List Char} {c : Char}

theorem skipBlanks_append {blanks : List Char} (hb : Blanks blanks) (cs : List Char) :
    skipBlanks (blanks ++ cs) = skipBlanks cs := by
  induction blanks with
  | nil => rfl
  | cons c blanks ih =>
    have hc : isBlank c = true := hb c List.mem_cons_self
    have hrest : Blanks blanks := fun c hc => hb c (List.mem_cons_of_mem _ hc)
    rw [← ih hrest]
    simp [skipBlanks, hc]

theorem skipBlanks_of_not_isBlank (hc : isBlank c = false) (cs : List Char) :
    skipBlanks (c :: cs) = c :: cs := by
  simp [skipBlanks, hc]

theorem skipBlanks_eq_nil (hb : Blanks cs) : skipBlanks cs = [] := by
  simpa [skipBlanks] using skipBlanks_append hb []

/-- The next token comes behind the blanks. -/
theorem Spaced.next (h : Spaced ((c :: token) :: ts) cs) (hc : isBlank c = false) :
    ∃ rest, skipBlanks cs = c :: (token ++ rest) ∧ Spaced ts rest := by
  cases h with
  | @cons blanks _ text _ hb h =>
    refine ⟨text, ?_, h⟩
    rw [skipBlanks_append hb]
    exact skipBlanks_of_not_isBlank hc _

theorem Spaced.next_char (h : Spaced ([c] :: ts) cs) (hc : isBlank c = false) :
    ∃ rest, skipBlanks cs = c :: rest ∧ Spaced ts rest := h.next hc

theorem Spaced.length_le (h : Spaced ts cs) : ts.flatten.length ≤ cs.length := by
  induction h with
  | nil _ => exact Nat.zero_le _
  | cons _ _ ih =>
    simp only [List.flatten_cons, List.length_append]
    omega

/-- What may come behind a value: the tokens that go on with a container or close it, or nothing. -/
def Closes (more : List (List Char)) : Prop :=
  ∀ t ∈ more.head?, t = [','] ∨ t = ['\x7d'] ∨ t = [']']

theorem closes_nil : Closes [] := by simp [Closes]

/-- No number goes on behind a value. -/
theorem Spaced.ends (h : Spaced more rest) (hmore : Closes more) : Ends rest := by
  have hblank {blanks : List Char} (hb : Blanks blanks) {text : List Char} (ht : Ends text) :
      Ends (blanks ++ text) := by
    cases blanks with
    | nil => exact ht
    | cons c blanks =>
      have hc := hb c List.mem_cons_self
      simp only [isBlank, Bool.or_eq_true, decide_eq_true_eq] at hc
      refine ends_cons ?_ _
      rcases hc with ((rfl | rfl) | rfl) | rfl <;> decide
  cases h with
  | nil hb => simpa using hblank hb ends_nil
  | cons hb h =>
    refine hblank hb ?_
    rcases hmore _ rfl with rfl | rfl | rfl
    · exact ends_cons (by decide) _
    · exact ends_cons (by decide) _
    · exact ends_cons (by decide) _

end Spaced

/-! ## Readers -/

/-- A reader answers `a` for the given tokens, whatever the blanks and whatever follows. -/
def Reads (reader : Reader α) (ts : List (List Char)) (a : α) : Prop :=
  ∀ more cs, Closes more → Spaced (ts ++ more) cs →
    ∃ rest, reader cs = .ok (a, rest) ∧ Spaced more rest

section Punctuation

variable {ts more : List (List Char)} {cs : List Char}

theorem readColon_of_spaced (h : Spaced ([':'] :: ts) cs) :
    ∃ rest, readColon cs = .ok rest ∧ Spaced ts rest := by
  obtain ⟨rest, hskip, hrest⟩ := h.next_char rfl
  exact ⟨rest, by simp [readColon, hskip], hrest⟩

/-- A value behind a colon. -/
theorem Reads.afterColon {reader : Reader α} {a : α} (h : Reads reader ts a) :
    Reads (fun cs => readColon cs >>= reader) ([':'] :: ts) a := by
  intro more cs hmore hcs
  obtain ⟨cs', hcolon, hcs'⟩ := readColon_of_spaced hcs
  obtain ⟨rest, hread, hrest⟩ := h more cs' hmore hcs'
  exact ⟨rest, by simp only [hcolon]; exact hread, hrest⟩

/-- What is read is worked on, without reading any further. -/
theorem Reads.followed {reader : Reader α} {a : α} (h : Reads reader ts a) {b : β}
    {f : α × List Char → Except Stop (β × List Char)} (hf : ∀ rest, f (a, rest) = .ok (b, rest)) :
    Reads (fun cs => reader cs >>= f) ts b := by
  intro more cs hmore hcs
  obtain ⟨rest, hread, hrest⟩ := h more cs hmore hcs
  exact ⟨rest, by simp only [hread]; exact hf rest, hrest⟩

theorem Reads.map {reader : Reader α} {a : α} (h : Reads reader ts a) (f : α → β) :
    Reads (fun cs => reader cs >>= fun p => .ok (f p.1, p.2)) ts (f a) :=
  h.followed fun _ => rfl

theorem writeString_eq (s : String) :
    writeString s = '"' :: (s.toList.flatMap writeChar ++ ['"']) := rfl

/-- The next token is a string. -/
theorem Spaced.next_string {s : String} (h : Spaced (writeString s :: ts) cs) :
    ∃ cs' rest, skipBlanks cs = '"' :: cs' ∧ readString cs' = .ok (s, rest) ∧ Spaced ts rest := by
  rw [writeString_eq] at h
  obtain ⟨rest, hskip, hrest⟩ := h.next rfl
  rw [List.append_assoc] at hskip
  exact ⟨_, rest, hskip, readString_writeString s rest, hrest⟩

theorem nextKey_of_spaced {first : Bool} {key : String}
    (h : Spaced (comma first ++ writeString key :: ts) cs) :
    ∃ rest, nextKey first cs = .ok (some key, rest) ∧ Spaced ts rest := by
  cases first with
  | true =>
    have h' : Spaced (writeString key :: ts) cs := h
    obtain ⟨cs', rest, hskip, hread, hrest⟩ := h'.next_string
    refine ⟨rest, ?_, hrest⟩
    simp [nextKey, nextKey.key, hskip, hread, Except.map]
  | false =>
    have h' : Spaced ([','] :: writeString key :: ts) cs := h
    obtain ⟨cs₁, hskip₁, h₁⟩ := h'.next_char rfl
    obtain ⟨cs', rest, hskip, hread, hrest⟩ := Spaced.next_string h₁
    refine ⟨rest, ?_, hrest⟩
    simp [nextKey, nextKey.key, hskip₁, hskip, hread, Except.map]

theorem nextKey_of_closed (first : Bool) (h : Spaced (['\x7d'] :: ts) cs) :
    ∃ rest, nextKey first cs = .ok (none, rest) ∧ Spaced ts rest := by
  obtain ⟨rest, hskip, hrest⟩ := h.next_char rfl
  exact ⟨rest, by simp [nextKey, hskip], hrest⟩

end Punctuation

/-! ## Members -/

/-- The reader of members takes the given ones from `a` to `a'`, one by one. -/
inductive MembersRead (member : String → α → Reader α) : α → List (String × Value) → α → Prop
  | nil (a : α) : MembersRead member a [] a
  | cons {a a₁ a₂ : α} {key : String} {v : Value} {ms : List (String × Value)}
    (h : Reads (member key a) ([':'] :: tokens v) a₁) (hms : MembersRead member a₁ ms a₂) :
    MembersRead member a ((key, v) :: ms) a₂

theorem closes_memberTokens (ms : List (String × Value)) (more : List (List Char)) :
    Closes (memberTokens false ms ++ ['\x7d'] :: more) := by
  cases ms with
  | nil => simp [Closes, memberTokens]
  | cons m ms => simp [Closes, memberTokens, comma]

theorem length_le_memberTokens (first : Bool) (ms : List (String × Value)) :
    ms.length ≤ (memberTokens first ms).flatten.length := by
  induction ms generalizing first with
  | nil => exact Nat.zero_le _
  | cons m ms ih =>
    have := ih false
    simp only [memberTokens, writeString_eq, List.flatten_append, List.flatten_cons,
      List.length_append, List.length_cons]
    omega

theorem membersFrom_of_spaced {member : String → α → Reader α} {a a' : α}
    {ms : List (String × Value)} (h : MembersRead member a ms a') {steps : List Char}
    (hsteps : ms.length < steps.length) {first : Bool} {more : List (List Char)} {cs : List Char}
    (hcs : Spaced (memberTokens first ms ++ ['\x7d'] :: more) cs) :
    ∃ rest, membersFrom member steps first a cs = .ok (a', rest) ∧ Spaced more rest := by
  induction h generalizing steps first cs with
  | nil a =>
    cases steps with
    | nil => simp at hsteps
    | cons _ steps =>
      obtain ⟨rest, hkey, hrest⟩ := nextKey_of_closed first hcs
      refine ⟨rest, ?_, hrest⟩
      simp only [membersFrom, hkey]
      rfl
  | @cons a a₁ a₂ key v ms h _ ih =>
    cases steps with
    | nil => simp at hsteps
    | cons _ steps =>
      have hsteps' : ms.length < steps.length := by simpa using hsteps
      have hcs' : Spaced (comma first ++ writeString key ::
          ([':'] :: tokens v ++ (memberTokens false ms ++ ['\x7d'] :: more))) cs := by
        simpa [memberTokens] using hcs
      obtain ⟨cs₁, hkey, hcs₁⟩ := nextKey_of_spaced hcs'
      obtain ⟨cs₂, hmember, hcs₂⟩ := h _ _ (closes_memberTokens ms more) hcs₁
      obtain ⟨rest, hms, hrest⟩ := ih hsteps' hcs₂
      refine ⟨rest, ?_, hrest⟩
      simp only [membersFrom, hkey, bind, Except.bind, hmember]
      exact hms

/-- **The members of an object**, behind its brace. -/
theorem reads_readMembers {member : String → α → Reader α} {a a' : α} {ms : List (String × Value)}
    (h : MembersRead member a ms a') :
    Reads (readMembers member a) (memberTokens true ms ++ [['\x7d']]) a' := by
  intro more cs _ hcs
  rw [List.append_assoc] at hcs
  refine membersFrom_of_spaced h ?_ hcs
  have hlength := hcs.length_le
  have hms := length_le_memberTokens true ms
  simp only [List.flatten_append, List.flatten_cons, List.length_append, List.length_cons,
    List.singleton_append] at hlength
  omega

/-! ## Values -/

/-- `w` is read for the value `v`, if there is room for as many containers inside each other. A number
is what is read for its text. Arrays are left out. -/
def ReadAs : (room : Nat) → (v w : Value) → Prop
  | _, .null, w => w = .null
  | _, .bool b, w => w = .bool b
  | _, .string s, w => w = .string s
  | _, .integer i, w =>
    w.IsNumber ∧ readValue depthLimit (writeScalar (.integer i)) = .ok (w, [])
  | _, .float x, w => w.IsNumber ∧ readValue depthLimit (writeScalar (.float x)) = .ok (w, [])
  | room + 1, .object ms, .object ws =>
    List.Forall₂ (fun m w => m.1 = w.1 ∧ ReadAs room m.2 w.2) ms ws
  | _, _, _ => False

theorem readScalar?_writeString (s : String) (rest : List Char) :
    readScalar? (writeString s ++ rest) = some (.ok (.string s, rest)) := by
  rw [writeString_eq, List.cons_append, List.append_assoc, List.singleton_append]
  simp [readScalar?, isDigit, digit?, readString_writeString, Except.map]

theorem reads_scalar {token cs : List Char} {c : Char} {w : Value} (room : Nat)
    (htoken : token = c :: cs) (hc : isBlank c = false)
    (h : ∀ rest, readScalar? (token ++ rest) = some (.ok (w, rest))) :
    Reads (readValue room) [token] w := by
  subst htoken
  intro more cs _ hcs
  obtain ⟨rest, hskip, hrest⟩ := Spaced.next hcs hc
  exact ⟨rest, readValue_of_readScalar? room (by rw [hskip]; exact h rest), hrest⟩

theorem reads_number {token : List Char} {w : Value} (hw : w.IsNumber)
    (h : readValue depthLimit token = .ok (w, [])) (room : Nat) :
    Reads (readValue room) [token] w := by
  intro more cs hmore hcs
  cases hcs with
  | @cons blanks _ text _ hb htext =>
    refine ⟨text, ?_, htext⟩
    have hread := readValue_append hw h (Spaced.ends htext hmore) room
    have hscalar := readScalar?_of_readValue hw hread
    exact readValue_of_readScalar? room (by rw [skipBlanks_append hb]; exact hscalar)

theorem membersRead_readValue {room : Nat} {ms ws : List (String × Value)}
    (h : List.Forall₂ (fun m w => m.1 = w.1 ∧ Reads (readValue room) (tokens m.2) w.2) ms ws)
    (before : List (String × Value)) :
    MembersRead
      (fun key before rest => do
        let rest ← readColon rest
        let (v, rest) ← readValue room rest
        return ((key, v) :: before, rest)) before ms (ws.reverse ++ before) := by
  induction h generalizing before with
  | nil => exact .nil before
  | @cons m w ms ws h _ ih =>
    obtain ⟨key, v⟩ := m
    obtain ⟨key', w⟩ := w
    obtain ⟨hkey : key = key', hw⟩ := h
    subst hkey
    rw [List.reverse_cons, List.append_assoc]
    have hmember := Reads.map hw fun v => (key, v) :: before
    exact .cons hmember.afterColon (ih ((key, w) :: before))

/-- An object, given the reader of what stands behind its brace. -/
theorem Reads.inBraces {inside reader : Reader α} {ms : List (String × Value)} {a : α}
    (h : Reads inside (memberTokens true ms ++ [['\x7d']]) a)
    (hreader : ∀ cs rest, skipBlanks cs = '\x7b' :: rest → reader cs = inside rest) :
    Reads reader (tokens (.object ms)) a := by
  intro more cs hmore hcs
  obtain ⟨cs', hskip, hcs'⟩ := Spaced.next_char hcs rfl
  obtain ⟨rest, hread, hrest⟩ := h more cs' hmore hcs'
  exact ⟨rest, (hreader cs cs' hskip).trans hread, hrest⟩

/-- A record that is given as an object. -/
theorem Reads.record {array object : Nat → Reader α} {room : Nat} {ms : List (String × Value)}
    {a : α} (h : Reads (object room) (memberTokens true ms ++ [['\x7d']]) a) (expected : String) :
    Reads (readRecord expected array object (room + 1)) (tokens (.object ms)) a := by
  refine h.inBraces fun cs rest hskip => ?_
  have hbracket : ¬ '\x7b' = '[' := by decide
  simp only [readRecord, hskip, if_neg hbracket, if_true, inRoom]

theorem reads_object {room : Nat} {ms ws : List (String × Value)}
    (h : List.Forall₂ (fun m w => m.1 = w.1 ∧ Reads (readValue room) (tokens m.2) w.2) ms ws) :
    Reads (readValue (room + 1)) (tokens (.object ms)) (.object ws) := by
  have hmembers := membersRead_readValue h []
  rw [List.append_nil] at hmembers
  have hobject := (reads_readMembers hmembers).map fun ms => Value.object ms.reverse
  rw [List.reverse_reverse] at hobject
  refine hobject.inBraces fun cs rest hskip => ?_
  have hscalar : readScalar? ('\x7b' :: rest) = none := rfl
  have hbracket : ¬ '\x7b' = '[' := by decide
  simp only [readValue, readBy, hskip, hscalar, if_neg hbracket, if_true]
  rfl

/-- Values that are no containers. -/
theorem reads_of_not_container {room : Nat} {v w : Value} (h : ReadAs room v w)
    (harray : ∀ items, v ≠ .array items) (hobject : ∀ ms, v ≠ .object ms) :
    Reads (readValue room) (tokens v) w := by
  cases v with
  | null =>
    simp only [ReadAs] at h
    subst h
    exact reads_scalar room rfl rfl fun rest => rfl
  | bool b =>
    simp only [ReadAs] at h
    subst h
    cases b with
    | false => exact reads_scalar room rfl rfl fun rest => rfl
    | true => exact reads_scalar room rfl rfl fun rest => rfl
  | integer i =>
    simp only [ReadAs] at h
    exact reads_number h.1 h.2 room
  | float x =>
    simp only [ReadAs] at h
    exact reads_number h.1 h.2 room
  | string s =>
    simp only [ReadAs] at h
    subst h
    exact reads_scalar room (writeString_eq s) rfl (readScalar?_writeString s)
  | array items => exact absurd rfl (harray items)
  | object ms => exact absurd rfl (hobject ms)

/-- **A value is read from all its layouts.** -/
theorem reads_readValue {room : Nat} {v w : Value} (h : ReadAs room v w) :
    Reads (readValue room) (tokens v) w := by
  induction room generalizing v w with
  | zero =>
    cases v with
    | array items => simp [ReadAs] at h
    | object ms => simp [ReadAs] at h
    | _ => exact reads_of_not_container h (by simp) (by simp)
  | succ room ih =>
    cases v with
    | array items => simp [ReadAs] at h
    | object ms =>
      cases w with
      | object ws =>
        simp only [ReadAs] at h
        exact reads_object (h.imp fun _ _ hm => ⟨hm.1, ih hm.2⟩)
      | _ => simp [ReadAs] at h
    | _ => exact reads_of_not_container h (by simp) (by simp)

end Shader.Json
