import Mathlib.Data.List.DropRight
import Shader.Document.Graph
import Shader.Proofs.Answers
import Shader.Proofs.Scanning

/-!
# What can be read can be passed over

Passing over a value follows looser rules than reading it. So where a reader finds a value, the same
text can be passed over, and both stop at the same place.

* `Passes`: the value at the front of a text can be passed over, whatever the steps allow beyond it;
  `IsPassed`: the readers whose values can be;
* `skipString_of_readString`, `skipNumber_of_readNumber`: scalars; `Passes.array`, `Passes.object`:
  containers, element by element;
* **`isPassed_readValue`**: any value that can be read.
-/

namespace Shader.Json

variable {α : Type} {cs rest : List Char}

/-! ## Blanks -/

theorem length_skipBlanks_le (cs : List Char) : (skipBlanks cs).length ≤ cs.length :=
  (List.dropWhile_suffix _).length_le

theorem skipBlanks_skipBlanks (cs : List Char) : skipBlanks (skipBlanks cs) = skipBlanks cs :=
  List.dropWhile_idempotent _ _

/-- What stands behind a sign at the front is shorter than the text. -/
theorem length_lt_of_skipBlanks {c : Char} (h : skipBlanks cs = c :: rest) :
    rest.length < cs.length := by
  have hle := length_skipBlanks_le cs
  rw [h] at hle
  exact hle

theorem skipFrom_skipBlanks (steps cs : List Char) :
    skipFrom steps (skipBlanks cs) = skipFrom steps cs := by
  cases steps with
  | nil => rfl
  | cons _ steps => simp only [skipFrom, skipBlanks_skipBlanks]

/-! ## Strings -/

theorem length_lt_of_readHex {n : Nat} (h : readHex cs = .ok (n, rest)) :
    rest.length < cs.length := by
  unfold readHex at h
  split at h
  · split at h
    · cases h
      simp only [List.length_cons]
      omega
    · cases h
  · split at h <;> cases h

theorem skipEscape_of_readHex {n : Nat} (h : readHex cs = .ok (n, rest)) :
    skipEscape ('u' :: cs) = .ok rest := by
  simp [skipEscape, h, bind, Except.bind, pure, Except.pure]

/-- The second half of a pair is an escape of its own. -/
theorem exists_of_readLowHalf {e : Char} {high : Nat} (h : readLowHalf high cs = .ok (e, rest)) :
    ∃ n digits, cs = '\\' :: 'u' :: digits ∧ readHex digits = .ok (n, rest) := by
  cases cs with
  | nil => cases h
  | cons c cs =>
    unfold readLowHalf at h
    dsimp only at h
    by_cases hc : c = '\\'
    · rw [if_neg (not_not_intro hc)] at h
      cases cs with
      | nil => cases h
      | cons u digits =>
        by_cases hu : u = 'u'
        · simp only [if_neg (not_not_intro hu)] at h
          obtain ⟨⟨low, left⟩, hlow, h⟩ := bind_eq_ok_iff.1 h
          dsimp only at h
          split at h
          · obtain ⟨-, rfl⟩ := Prod.mk.inj (Except.ok.inj h)
            exact ⟨low, digits, by rw [hc, hu], hlow⟩
          · cases h
        · simp only [if_pos hu] at h
          cases h
    · rw [if_pos hc] at h
      cases h

/-- An escape that is read is passed over as one or, if it is a pair of halves, as two. -/
theorem skipEscape_of_readEscape {e : Char} (h : readEscape cs = .ok (e, rest)) :
    ∃ middle, skipEscape cs = .ok middle ∧ middle.length < cs.length ∧
      (middle = rest ∨ ∃ n digits, middle = '\\' :: 'u' :: digits ∧
        readHex digits = .ok (n, rest)) := by
  cases cs with
  | nil => cases h
  | cons c cs =>
    by_cases hu : c = 'u'
    · subst hu
      rw [readEscape, if_pos rfl] at h
      obtain ⟨⟨n, middle⟩, hhex, h⟩ := bind_eq_ok_iff.1 h
      refine ⟨middle, skipEscape_of_readHex hhex, Nat.lt_succ_of_lt (length_lt_of_readHex hhex), ?_⟩
      dsimp only at h
      split at h
      · cases h
      · split at h
        · exact .inr (exists_of_readLowHalf h)
        · cases h
          exact .inl rfl
    · rw [readEscape, if_neg hu] at h
      split at h
      · rename_i e' he
        cases h
        refine ⟨rest, ?_, Nat.lt_succ_self _, .inl rfl⟩
        rw [skipEscape, if_neg hu, he]
        rfl
      · cases h

/-- What the next character of a string may be: the closing mark, an escape, or a plain one. -/
theorem readChar_cases {found : Option Char} (h : readChar cs = .ok (found, rest)) :
    (found = none ∧ cs = '"' :: rest) ∨
      (∃ e inner, found = some e ∧ cs = '\\' :: inner ∧ readEscape inner = .ok (e, rest)) ∨
      ∃ c, found = some c ∧ cs = c :: rest ∧ c ≠ '"' ∧ c ≠ '\\' ∧ ¬ c.toNat < 32 := by
  cases cs with
  | nil => cases h
  | cons c cs =>
    simp only [readChar] at h
    split at h
    case isTrue hquote =>
      cases h
      exact .inl ⟨rfl, by rw [hquote]⟩
    case isFalse hquote =>
      split at h
      case isTrue hslash =>
        obtain ⟨⟨e, left⟩, hescape, h⟩ := bind_eq_ok_iff.1 h
        cases h
        exact .inr (.inl ⟨e, cs, rfl, by rw [hslash], hescape⟩)
      case isFalse hslash =>
        split at h
        case isTrue => cases h
        case isFalse hcontrol =>
          cases h
          exact .inr (.inr ⟨c, rfl, rfl, hquote, hslash, hcontrol⟩)

/-- Characters that are read are passed over, with any steps that the text does not exceed. -/
theorem skipChars_of_readChars {steps s : List Char} (h : readChars steps cs = .ok (s, rest)) :
    rest.length < cs.length ∧
      ∀ fuel : List Char, cs.length ≤ fuel.length → skipChars fuel cs = .ok rest := by
  induction steps generalizing cs s with
  | nil => cases h
  | cons _ steps ih =>
    obtain ⟨⟨found, left⟩, hchar, hrest⟩ := bind_eq_ok_iff.1 h
    clear h
    obtain ⟨rfl, rfl⟩ | ⟨e, inner, rfl, rfl, hescape⟩ | ⟨c, rfl, rfl, hquote, hslash, hcontrol⟩ :=
      readChar_cases hchar
    · cases hrest
      refine ⟨Nat.lt_succ_self _, fun fuel hfuel => ?_⟩
      obtain ⟨_, fuel, rfl⟩ := List.exists_cons_of_length_pos (Nat.lt_of_lt_of_le (by simp) hfuel)
      rw [skipChars, if_pos rfl]
    · obtain ⟨⟨more, left'⟩, hmore, hrest⟩ := bind_eq_ok_iff.1 hrest
      cases hrest
      obtain ⟨hlength, hskip⟩ := ih hmore
      obtain ⟨middle, hmiddle, hlt, hpair⟩ := skipEscape_of_readEscape hescape
      have hpass (fuel : List Char) (hfuel : inner.length ≤ fuel.length) :
          skipChars fuel middle = .ok rest := by
        obtain rfl | ⟨n, digits, rfl, hhex⟩ := hpair
        · exact hskip fuel (by omega)
        · -- the second half of a pair takes a step of its own
          have := length_lt_of_readHex hhex
          simp only [List.length_cons] at hlt
          obtain ⟨_, fuel, rfl⟩ := List.exists_cons_of_length_pos (show 0 < fuel.length by omega)
          simp only [List.length_cons] at hfuel
          rw [skipChars, if_neg (by decide), if_pos rfl, skipEscape_of_readHex hhex]
          exact hskip fuel (by omega)
      constructor
      · obtain rfl | ⟨n, digits, rfl, hhex⟩ := hpair
        · exact Nat.lt_succ_of_lt (Nat.lt_trans hlength hlt)
        · have := length_lt_of_readHex hhex
          simp only [List.length_cons] at hlt ⊢
          omega
      · intro fuel hfuel
        obtain ⟨_, fuel, rfl⟩ := List.exists_cons_of_length_pos (Nat.lt_of_lt_of_le (by simp) hfuel)
        rw [skipChars, if_neg (by decide), if_pos rfl, hmiddle]
        exact hpass fuel (Nat.le_of_succ_le_succ hfuel)
    · obtain ⟨⟨more, left'⟩, hmore, hrest⟩ := bind_eq_ok_iff.1 hrest
      cases hrest
      obtain ⟨hlength, hskip⟩ := ih hmore
      refine ⟨Nat.lt_succ_of_lt hlength, fun fuel hfuel => ?_⟩
      obtain ⟨_, fuel, rfl⟩ := List.exists_cons_of_length_pos (Nat.lt_of_lt_of_le (by simp) hfuel)
      rw [skipChars, if_neg hquote, if_neg hslash, if_neg hcontrol]
      exact hskip fuel (Nat.le_of_succ_le_succ hfuel)

theorem skipString_of_readString {s : String} (h : readString cs = .ok (s, rest)) :
    skipString cs = .ok rest ∧ rest.length < cs.length := by
  obtain ⟨⟨chars, left⟩, hchars, h⟩ := bind_eq_ok_iff.1 h
  cases h
  obtain ⟨hlength, hskip⟩ := skipChars_of_readChars hchars
  exact ⟨hskip cs (Nat.le_refl _), hlength⟩

/-! ## Numbers -/

theorem wholeDigits_rest (significand : Nat) (cs : List Char) :
    (wholeDigits significand cs).2.2 = cs.dropWhile isDigit := by
  induction cs generalizing significand with
  | nil => rfl
  | cons c cs ih =>
    unfold wholeDigits
    cases hc : digit? c with
    | none => simp [List.dropWhile, isDigit, hc]
    | some d =>
      have hdigit : isDigit c = true := by simp [isDigit, hc]
      rw [List.dropWhile_cons_of_pos hdigit]
      dsimp only
      split
      · exact ih _
      · rfl

theorem fractionDigits_rest (significand : Nat) (cs : List Char) :
    (fractionDigits significand cs).2.2 = cs.dropWhile isDigit := by
  induction cs generalizing significand with
  | nil => rfl
  | cons c cs ih =>
    unfold fractionDigits
    cases hc : digit? c with
    | none => simp [List.dropWhile, isDigit, hc]
    | some d =>
      have hdigit : isDigit c = true := by simp [isDigit, hc]
      rw [List.dropWhile_cons_of_pos hdigit]
      dsimp only
      split
      · exact ih _
      · rfl

/-- The digits of an exponent end where they would without a bound, if the rest is passed over. -/
theorem exponentFrom_rest (e : Nat) (cs : List Char) :
    (exponentFrom e cs).2.dropWhile isDigit = cs.dropWhile isDigit ∧
      ((exponentFrom e cs).1.isSome → (exponentFrom e cs).2 = cs.dropWhile isDigit) := by
  induction cs generalizing e with
  | nil => simp [exponentFrom]
  | cons c cs ih =>
    unfold exponentFrom
    cases hc : digit? c with
    | none => simp [List.dropWhile, isDigit, hc]
    | some d =>
      have hdigit : isDigit c = true := by simp [isDigit, hc]
      rw [List.dropWhile_cons_of_pos hdigit]
      dsimp only
      split
      · exact ih _
      · simp

theorem rest_of_floatBefore {negative : Bool} {significand : Nat} {exponent : Int} {v : Value}
    (h : floatBefore negative significand exponent cs = .ok (v, rest)) : rest = cs := by
  obtain ⟨x, -, hx⟩ := map_eq_ok_iff.1 h
  exact (Prod.mk.inj hx).2

theorem skipDigits_of_readExponent {negative : Bool} {significand : Nat} {exponent : Int} {v : Value}
    (h : readExponent negative significand exponent cs = .ok (v, rest)) :
    skipDigits (exponentSign cs).2 = .ok rest := by
  simp only [readExponent] at h
  obtain ⟨⟨found, left⟩, hdigits, h⟩ := bind_eq_ok_iff.1 h
  cases hcs : (exponentSign cs).2 with
  | nil =>
    rw [hcs] at hdigits
    cases hdigits
  | cons c digits =>
    rw [hcs] at hdigits
    simp only [exponentDigits] at hdigits
    by_cases hc : isDigit c = true
    · rw [if_pos hc] at hdigits
      have hleft := Except.ok.inj hdigits
      have hrest := exponentFrom_rest 0 (c :: digits)
      rw [hleft] at hrest
      have hskip : skipDigits (c :: digits) = .ok ((c :: digits).dropWhile isDigit) := by
        simp [skipDigits, hc]
      rw [hskip]
      cases found with
      | some e =>
        have hleft : left = (c :: digits).dropWhile isDigit := hrest.2 rfl
        rw [rest_of_floatBefore h, hleft]
      | none =>
        dsimp only at h
        split at h
        · cases h
        · cases h
          rw [hrest.1]
    · rw [if_neg hc] at hdigits
      cases hdigits

theorem skipExponent_of_afterFraction {negative : Bool} {significand : Nat} {exponent : Int}
    {v : Value} (h : afterFraction negative significand exponent cs = .ok (v, rest)) :
    skipExponent cs = .ok rest := by
  cases cs with
  | nil => rw [rest_of_floatBefore h, skipExponent]
  | cons c cs =>
    simp only [afterFraction, skipExponent] at h ⊢
    split at h
    case isTrue hmark =>
      rw [if_pos hmark]
      exact skipDigits_of_readExponent h
    case isFalse hmark => rw [if_neg hmark, rest_of_floatBefore h]

theorem skipFraction_of_afterWhole {negative : Bool} {significand dropped : Nat} {v : Value}
    (h : afterWhole negative significand dropped cs = .ok (v, rest)) :
    skipFraction cs = .ok rest := by
  have hplain {cs : List Char} (h : (if dropped = 0 then .ok (integerOf negative significand, cs)
      else floatBefore negative significand dropped cs) = .ok (v, rest)) : rest = cs := by
    split at h
    · cases h
      rfl
    · exact rest_of_floatBefore h
  cases cs with
  | nil => rw [hplain h, skipFraction]
  | cons c cs =>
    simp only [afterWhole, skipFraction] at h ⊢
    by_cases hpoint : c = '.'
    · rw [if_pos hpoint] at h ⊢
      cases cs with
      | nil => cases h
      | cons d digits =>
        simp only [readFraction] at h
        split at h
        case isTrue hd =>
          have hskip : skipDigits (d :: digits) = .ok ((d :: digits).dropWhile isDigit) := by
            simp [skipDigits, hd]
          rw [hskip, ← fractionDigits_rest significand]
          exact skipExponent_of_afterFraction h
        case isFalse => cases h
    rw [if_neg hpoint] at h ⊢
    by_cases hmark : isExponentMark c = true
    · rw [if_pos hmark] at h
      rw [skipExponent, if_pos hmark]
      exact skipDigits_of_readExponent h
    · rw [if_neg hmark] at h
      rw [skipExponent, if_neg hmark, hplain h]

theorem length_lt_of_skipDigits (h : skipDigits cs = .ok rest) : rest.length < cs.length := by
  unfold skipDigits at h
  split at h
  case isTrue hdigit =>
    cases h
    cases cs with
    | nil => cases hdigit
    | cons c cs =>
      have hc : isDigit c = true := hdigit
      rw [List.dropWhile_cons_of_pos hc]
      exact Nat.lt_succ_of_le (List.dropWhile_suffix _).length_le
  case isFalse => cases h

theorem length_exponentSign_le (cs : List Char) : (exponentSign cs).2.length ≤ cs.length := by
  cases cs with
  | nil => exact Nat.le_refl _
  | cons c cs =>
    simp only [exponentSign]
    split
    · exact Nat.le_succ _
    · split
      · exact Nat.le_succ _
      · exact Nat.le_refl _

theorem length_le_of_skipExponent (h : skipExponent cs = .ok rest) : rest.length ≤ cs.length := by
  cases cs with
  | nil =>
    cases h
    exact Nat.le_refl _
  | cons c cs =>
    rw [skipExponent] at h
    split at h
    · have hlt := length_lt_of_skipDigits h
      have hle := length_exponentSign_le cs
      simp only [List.length_cons]
      omega
    · cases h
      exact Nat.le_refl _

theorem length_le_of_skipFraction (h : skipFraction cs = .ok rest) : rest.length ≤ cs.length := by
  cases cs with
  | nil =>
    cases h
    exact Nat.le_refl _
  | cons c cs =>
    rw [skipFraction] at h
    split at h
    · obtain ⟨left, hdigits, h⟩ := bind_eq_ok_iff.1 h
      have hlt := length_lt_of_skipDigits hdigits
      have hle := length_le_of_skipExponent h
      simp only [List.length_cons]
      omega
    · exact length_le_of_skipExponent h

theorem skipNumber_of_readNumber {negative : Bool} {v : Value}
    (h : readNumber negative cs = .ok (v, rest)) :
    skipNumber cs = .ok rest ∧ rest.length < cs.length := by
  cases cs with
  | nil => cases h
  | cons c cs =>
    simp only [readNumber, skipNumber] at h ⊢
    by_cases hzero : c = '0'
    · rw [if_pos hzero] at h ⊢
      split at h
      case isTrue => cases h
      case isFalse hd =>
        have hskip := skipFraction_of_afterWhole h
        rw [if_neg hd]
        exact ⟨hskip, Nat.lt_succ_of_le (length_le_of_skipFraction hskip)⟩
    rw [if_neg hzero] at h ⊢
    split at h
    case isTrue hc =>
      have hskip := skipFraction_of_afterWhole h
      rw [wholeDigits_rest] at hskip
      have hdigits : skipDigits (c :: cs) = .ok ((c :: cs).dropWhile isDigit) := by
        simp [skipDigits, hc]
      rw [hdigits]
      exact ⟨hskip, Nat.lt_of_le_of_lt (length_le_of_skipFraction hskip)
        (length_lt_of_skipDigits hdigits)⟩
    case isFalse => cases h

/-! ## Values -/

/-- The value at the front of a text can be passed over, which leaves `rest`. The text itself has
enough characters to count the steps. -/
structure Passes (cs rest : List Char) : Prop where
  length_lt : rest.length < cs.length
  skip : ∀ steps : List Char, cs.length ≤ steps.length → skipFrom steps cs = .ok rest

/-- Readers of values that can be passed over. -/
def IsPassed (reader : Reader α) : Prop := ∀ {cs a rest}, reader cs = .ok (a, rest) → Passes cs rest

/-- Readers of members whose values can be passed over. -/
def IsMemberPassed (member : String → α → Reader α) : Prop :=
  ∀ {key a cs a' rest}, member key a cs = .ok (a', rest) →
    ∃ value, readColon cs = .ok value ∧ Passes value rest

/-- A value can be passed over with its own characters as steps. -/
theorem Passes.skipValue (h : Passes cs rest) : skipValue cs = .ok rest := h.skip cs (Nat.le_refl _)

/-- Blanks in front of a value do not matter. -/
theorem passes_of_skipBlanks (h : Passes (skipBlanks cs) rest) : Passes cs rest where
  length_lt := Nat.lt_of_lt_of_le h.length_lt (length_skipBlanks_le cs)
  skip steps hsteps := by
    rw [← skipFrom_skipBlanks]
    exact h.skip steps (Nat.le_trans (length_skipBlanks_le cs) hsteps)

theorem length_le_of_readWord {word : List Char} (h : readWord word cs = .ok rest) :
    rest.length ≤ cs.length := by
  induction word generalizing cs with
  | nil =>
    cases h
    exact Nat.le_refl _
  | cons w word ih =>
    cases cs with
    | nil => cases h
    | cons c cs =>
      rw [readWord] at h
      split at h
      · exact Nat.le_succ_of_le (ih h)
      · cases h

theorem isBlank_of_readScalar? {c : Char} {r : Except Stop (Value × List Char)}
    (h : readScalar? (c :: cs) = some r) : isBlank c = false := by
  cases hc : isBlank c with
  | false => rfl
  | true =>
    simp only [isBlank, Bool.or_eq_true, decide_eq_true_eq] at hc
    obtain ((rfl | rfl) | rfl) | rfl := hc <;> cases h

theorem passes_of_readScalar? {v : Value} (h : readScalar? cs = some (.ok (v, rest))) :
    Passes cs rest := by
  cases cs with
  | nil => cases h
  | cons c cs =>
    have hblank : skipBlanks (c :: cs) = c :: cs :=
      List.dropWhile_cons_of_neg (by rw [isBlank_of_readScalar? h]; decide)
    simp only [readScalar?] at h
    have hnamed {word : List Char} {w : Value} (h : some (readNamed word w cs) = some (.ok (v, rest))) :
        readWord word cs = .ok rest := by
      obtain ⟨left, hleft, hv⟩ := map_eq_ok_iff.1 (Option.some.inj h)
      rw [hleft, (Prod.mk.inj hv).2]
    -- the same test of the first character decides in both
    suffices hskip : rest.length < (c :: cs).length ∧
        ∀ steps, skipFrom (c :: steps) (c :: cs) = .ok rest by
      refine ⟨hskip.1, fun steps hsteps => ?_⟩
      obtain ⟨s, steps, rfl⟩ := List.exists_cons_of_length_pos (Nat.lt_of_lt_of_le (by simp) hsteps)
      exact hskip.2 steps
    simp only [skipFrom, hblank]
    by_cases hn : c = 'n'
    · simp only [if_pos hn] at h ⊢
      exact ⟨Nat.lt_succ_of_le (length_le_of_readWord (hnamed h)), fun _ => hnamed h⟩
    by_cases ht : c = 't'
    · simp only [if_neg hn, if_pos ht] at h ⊢
      exact ⟨Nat.lt_succ_of_le (length_le_of_readWord (hnamed h)), fun _ => hnamed h⟩
    by_cases hf : c = 'f'
    · simp only [if_neg hn, if_neg ht, if_pos hf] at h ⊢
      exact ⟨Nat.lt_succ_of_le (length_le_of_readWord (hnamed h)), fun _ => hnamed h⟩
    by_cases hsign : c = '-'
    · simp only [if_neg hn, if_neg ht, if_neg hf, if_pos hsign] at h ⊢
      obtain ⟨hskip, hlength⟩ := skipNumber_of_readNumber (Option.some.inj h)
      exact ⟨Nat.lt_succ_of_lt hlength, fun _ => hskip⟩
    by_cases hdigit : isDigit c = true
    · simp only [if_neg hn, if_neg ht, if_neg hf, if_neg hsign, if_pos hdigit] at h ⊢
      obtain ⟨hskip, hlength⟩ := skipNumber_of_readNumber (Option.some.inj h)
      exact ⟨hlength, fun _ => hskip⟩
    by_cases hquote : c = '"'
    · simp only [if_neg hn, if_neg ht, if_neg hf, if_neg hsign, if_neg hdigit, if_pos hquote] at h ⊢
      obtain ⟨⟨s, left⟩, hs, hv⟩ := map_eq_ok_iff.1 (Option.some.inj h)
      obtain ⟨hskip, hlength⟩ := skipString_of_readString hs
      obtain rfl : rest = left := (Prod.mk.inj hv).2
      exact ⟨Nat.lt_succ_of_lt hlength, fun _ => hskip⟩
    · simp only [if_neg hn, if_neg ht, if_neg hf, if_neg hsign, if_neg hdigit, if_neg hquote] at h
      cases h

/-! ## Arrays -/

/-- An array ends at its bracket. -/
theorem skipBlanks_of_nextElement_end {first : Bool}
    (h : nextElement first cs = .ok (false, rest)) : skipBlanks cs = ']' :: rest := by
  unfold nextElement at h
  cases hcs : skipBlanks cs with
  | nil =>
    rw [hcs] at h
    cases h
  | cons c left =>
    rw [hcs] at h
    dsimp only at h
    split at h
    case isTrue hc =>
      cases h
      rw [hc]
    case isFalse =>
      split at h
      · cases h
      · split at h
        · split at h
          · cases h
          · split at h <;> cases h
        · cases h

/-- The first element stands right behind the bracket. -/
theorem skipBlanks_of_nextElement_first (h : nextElement true cs = .ok (true, rest)) :
    skipBlanks cs = rest ∧ ∃ d left, rest = d :: left ∧ d ≠ ']' := by
  unfold nextElement at h
  cases hcs : skipBlanks cs with
  | nil =>
    rw [hcs] at h
    cases h
  | cons c left =>
    rw [hcs] at h
    dsimp only at h
    split at h
    case isTrue => cases h
    case isFalse hc =>
      cases h
      exact ⟨rfl, c, left, rfl, hc⟩

/-- Every other element stands behind a comma. -/
theorem skipBlanks_of_nextElement_comma (h : nextElement false cs = .ok (true, rest)) :
    ∃ left, skipBlanks cs = ',' :: left ∧ skipBlanks left = rest := by
  unfold nextElement at h
  cases hcs : skipBlanks cs with
  | nil =>
    rw [hcs] at h
    cases h
  | cons c left =>
    rw [hcs] at h
    dsimp only at h
    split at h
    case isTrue => cases h
    case isFalse =>
      split at h
      case isTrue hfirst => cases hfirst
      case isFalse =>
        split at h
        case isFalse => cases h
        case isTrue hcomma =>
          refine ⟨left, by rw [hcomma], ?_⟩
          cases hleft : skipBlanks left with
          | nil =>
            rw [hleft] at h
            cases h
          | cons d left' =>
            rw [hleft] at h
            dsimp only at h
            split at h
            · cases h
            · cases h
              rfl

theorem skipElements_skipBlanks (room steps cs : List Char) :
    skipElements (skipFrom room) steps (skipBlanks cs) = skipElements (skipFrom room) steps cs := by
  cases steps with
  | nil => rfl
  | cons _ steps => simp only [skipElements, skipFrom_skipBlanks]

/-- **Elements that are read are passed over**, the first of them being passed over already. -/
theorem Passes.elements {item : Reader α} (hitem : IsPassed item) {middle : List Char}
    {steps : List Char} {as : List α} (hfirst : Passes cs middle)
    (h : elementsFrom item steps false middle = .ok (as, rest)) :
    rest.length < cs.length ∧ ∀ room fuel : List Char, cs.length ≤ room.length →
      cs.length ≤ fuel.length → skipElements (skipFrom room) fuel cs = .ok rest := by
  induction steps generalizing cs middle as with
  | nil => cases h
  | cons _ steps ih =>
    have hlt := hfirst.length_lt
    obtain ⟨⟨more, left⟩, hnext, h⟩ := bind_eq_ok_iff.1 h
    cases more with
    | false =>
      cases h
      have hend := skipBlanks_of_nextElement_end hnext
      have hrest := length_lt_of_skipBlanks hend
      refine ⟨by omega, fun room fuel hroom hfuel => ?_⟩
      obtain ⟨_, fuel, rfl⟩ := List.exists_cons_of_length_pos (show 0 < fuel.length by omega)
      simp only [skipElements, hfirst.skip room hroom, bind, Except.bind, hend, if_true]
    | true =>
      obtain ⟨⟨a, middle'⟩, ha, h⟩ := bind_eq_ok_iff.1 h
      obtain ⟨⟨as', rest'⟩, has, h⟩ := bind_eq_ok_iff.1 h
      cases h
      obtain ⟨behind, hcomma, hleft⟩ := skipBlanks_of_nextElement_comma hnext
      have hbehind := length_lt_of_skipBlanks hcomma
      have hle := length_skipBlanks_le behind
      rw [hleft] at hle
      obtain ⟨hrest, hskip⟩ := ih (hitem ha) has
      refine ⟨by omega, fun room fuel hroom hfuel => ?_⟩
      obtain ⟨_, fuel, rfl⟩ := List.exists_cons_of_length_pos (show 0 < fuel.length by omega)
      simp only [List.length_cons] at hfuel
      have hbrace : ¬ (',' : Char) = ']' := by decide
      simp only [skipElements, hfirst.skip room hroom, bind, Except.bind, hcomma, if_neg hbrace,
        if_true]
      rw [← skipElements_skipBlanks, hleft]
      exact hskip room fuel (by omega) (by omega)

/-- An array that is empty. -/
theorem passes_emptyArray {inner : List Char} (hcs : skipBlanks cs = '[' :: inner)
    (hinner : skipBlanks inner = ']' :: rest) : Passes cs rest where
  length_lt := Nat.lt_trans (length_lt_of_skipBlanks hinner) (length_lt_of_skipBlanks hcs)
  skip steps hsteps := by
    have hlt := length_lt_of_skipBlanks hcs
    obtain ⟨_, steps, rfl⟩ := List.exists_cons_of_length_pos (show 0 < steps.length by omega)
    simp only [skipFrom, hcs, hinner]
    rfl

/-- An array whose first element can be passed over, and the others are read. -/
theorem passes_array {item : Reader α} (hitem : IsPassed item) {inner first middle steps : List Char}
    {as : List α} (hcs : skipBlanks cs = '[' :: inner)
    (hinner : nextElement true inner = .ok (true, first)) (hfirst : Passes first middle)
    (h : elementsFrom item steps false middle = .ok (as, rest)) : Passes cs rest := by
  obtain ⟨hleft, d, left, rfl, hd⟩ := skipBlanks_of_nextElement_first hinner
  obtain ⟨hrest, hskip⟩ := hfirst.elements hitem h
  have hlt := length_lt_of_skipBlanks hcs
  have hle := length_skipBlanks_le inner
  rw [hleft] at hle
  refine ⟨by omega, fun steps hsteps => ?_⟩
  obtain ⟨_, steps, rfl⟩ := List.exists_cons_of_length_pos (show 0 < steps.length by omega)
  simp only [List.length_cons] at hsteps
  have hpass := hskip steps inner (by omega) (by omega)
  rw [← hleft, skipElements_skipBlanks] at hpass
  simp only [skipFrom, hcs, hleft]
  exact (if_neg hd).trans hpass

theorem passes_elements {item : Reader α} (hitem : IsPassed item) {inner steps : List Char}
    {as : List α} (hcs : skipBlanks cs = '[' :: inner)
    (h : elementsFrom item steps true inner = .ok (as, rest)) : Passes cs rest := by
  cases steps with
  | nil => cases h
  | cons _ steps =>
    obtain ⟨⟨more, left⟩, hnext, h⟩ := bind_eq_ok_iff.1 h
    cases more with
    | false =>
      cases h
      exact passes_emptyArray hcs (skipBlanks_of_nextElement_end hnext)
    | true =>
      obtain ⟨⟨a, middle⟩, ha, h⟩ := bind_eq_ok_iff.1 h
      obtain ⟨⟨as', rest'⟩, has, h⟩ := bind_eq_ok_iff.1 h
      cases h
      exact passes_array hitem hcs hnext (hitem ha) has

/-! ## Objects -/

theorem readKey_eq_ok {key? : Option String} (h : nextKey.key cs = .ok (key?, rest)) :
    ∃ key inner, key? = some key ∧ cs = '"' :: inner ∧ readString inner = .ok (key, rest) := by
  unfold nextKey.key at h
  split at h
  · obtain ⟨⟨key, left⟩, hs, hv⟩ := map_eq_ok_iff.1 h
    cases hv
    exact ⟨key, _, rfl, rfl, hs⟩
  · cases h

/-- The end of an object, or a key: the first one right behind the brace, another one behind a comma. -/
theorem nextKey_cases {first : Bool} {key? : Option String}
    (h : nextKey first cs = .ok (key?, rest)) :
    (key? = none ∧ skipBlanks cs = '\x7d' :: rest) ∨
      ∃ key inner before, key? = some key ∧ readString inner = .ok (key, rest) ∧
        skipBlanks before = '"' :: inner ∧
        (first = true ∧ before = cs ∨ first = false ∧ skipBlanks cs = ',' :: before) := by
  unfold nextKey at h
  cases hcs : skipBlanks cs with
  | nil =>
    rw [hcs] at h
    cases h
  | cons c left =>
    rw [hcs] at h
    dsimp only at h
    split at h
    case isTrue hc =>
      cases h
      exact .inl ⟨rfl, by rw [hc]⟩
    case isFalse =>
      split at h
      case isTrue hfirst =>
        obtain ⟨key, inner, rfl, hinner, hs⟩ := readKey_eq_ok h
        exact .inr ⟨key, inner, cs, rfl, hs, hcs.trans hinner, .inl ⟨hfirst, rfl⟩⟩
      case isFalse hfirst =>
        split at h
        case isFalse => cases h
        case isTrue hcomma =>
          cases hleft : skipBlanks left with
          | nil =>
            rw [hleft] at h
            cases h
          | cons d left' =>
            rw [hleft] at h
            dsimp only at h
            split at h
            · cases h
            · obtain ⟨key, inner, rfl, hinner, hs⟩ := readKey_eq_ok h
              exact .inr ⟨key, inner, left, rfl, hs, hleft.trans hinner,
                .inr ⟨Bool.eq_false_iff.2 hfirst, by rw [hcomma]⟩⟩

theorem length_lt_of_readColon (h : readColon cs = .ok rest) : rest.length < cs.length := by
  unfold readColon at h
  cases hcs : skipBlanks cs with
  | nil =>
    rw [hcs] at h
    cases h
  | cons c left =>
    rw [hcs] at h
    dsimp only at h
    split at h
    · cases h
      exact length_lt_of_skipBlanks hcs
    · cases h

/-- A key, a colon and a value that can be passed over. -/
def PassesMember (cs rest : List Char) : Prop :=
  ∃ inner key behind value, skipBlanks cs = '"' :: inner ∧
    readString inner = .ok (key, behind) ∧ readColon behind = .ok value ∧ Passes value rest

theorem PassesMember.length_lt (h : PassesMember cs rest) : rest.length < cs.length := by
  obtain ⟨inner, key, behind, value, hcs, hkey, hcolon, hvalue⟩ := h
  have h₁ := length_lt_of_skipBlanks hcs
  have h₂ := (skipString_of_readString hkey).2
  have h₃ := length_lt_of_readColon hcolon
  have h₄ := hvalue.length_lt
  omega

/-- Passing over members begins with the first of them. -/
theorem PassesMember.skipMembers (h : PassesMember cs rest) {room : List Char} (c : Char)
    (fuel : List Char) (hroom : cs.length ≤ room.length) :
    skipMembers (skipFrom room) (c :: fuel) cs =
      match skipBlanks rest with
      | [] => stopBefore (.ended .object) []
      | c :: rest =>
        if c = '\x7d' then .ok rest
        else if c = ',' then Json.skipMembers (skipFrom room) fuel rest
        else stopOn .expectedCommaOrBrace (c :: rest) := by
  obtain ⟨inner, key, behind, value, hcs, hkey, hcolon, hvalue⟩ := h
  have h₁ := length_lt_of_skipBlanks hcs
  obtain ⟨hskip, h₂⟩ := skipString_of_readString hkey
  have h₃ := length_lt_of_readColon hcolon
  have hquote : ¬ ('"' : Char) ≠ '"' := not_not_intro rfl
  have hpass := hvalue.skip room (by omega)
  cases hend : skipBlanks rest with
  | nil =>
    simp only [Json.skipMembers, hcs, if_neg hquote, hskip, hcolon, hpass, hend, bind, Except.bind]
  | cons d left =>
    simp only [Json.skipMembers, hcs, if_neg hquote, hskip, hcolon, hpass, hend, bind, Except.bind]

/-- **Members that are read are passed over**, the first of them being passed over already. -/
theorem PassesMember.members {member : String → α → Reader α} (hmember : IsMemberPassed member)
    {middle steps : List Char} {a a' : α} (hfirst : PassesMember cs middle)
    (h : membersFrom member steps false a middle = .ok (a', rest)) :
    rest.length < cs.length ∧ ∀ room fuel : List Char, cs.length ≤ room.length →
      cs.length ≤ fuel.length → Json.skipMembers (skipFrom room) fuel cs = .ok rest := by
  induction steps generalizing cs middle a with
  | nil => cases h
  | cons _ steps ih =>
    have hlt := hfirst.length_lt
    obtain ⟨⟨key?, left⟩, hnext, h⟩ := bind_eq_ok_iff.1 h
    obtain ⟨rfl, hend⟩ | ⟨key, inner, before, rfl, hkey, hbefore, ⟨hfirst', -⟩ | ⟨-, hcomma⟩⟩ :=
      nextKey_cases hnext
    · cases h
      have hrest := length_lt_of_skipBlanks hend
      refine ⟨by omega, fun room fuel hroom hfuel => ?_⟩
      obtain ⟨_, fuel, rfl⟩ := List.exists_cons_of_length_pos (show 0 < fuel.length by omega)
      rw [hfirst.skipMembers _ fuel hroom, hend]
      rfl
    · cases hfirst'
    · obtain ⟨⟨a₁, middle'⟩, ha, h⟩ := bind_eq_ok_iff.1 h
      obtain ⟨value, hcolon, hvalue⟩ := hmember ha
      have hnew : PassesMember before middle' := ⟨inner, key, left, value, hbefore, hkey, hcolon, hvalue⟩
      obtain ⟨hrest, hskip⟩ := ih hnew h
      have hle := length_lt_of_skipBlanks hcomma
      refine ⟨by omega, fun room fuel hroom hfuel => ?_⟩
      obtain ⟨_, fuel, rfl⟩ := List.exists_cons_of_length_pos (show 0 < fuel.length by omega)
      simp only [List.length_cons] at hfuel
      have hbrace : ¬ (',' : Char) = '\x7d' := by decide
      rw [hfirst.skipMembers _ fuel hroom, hcomma]
      simp only [if_neg hbrace, if_true]
      exact hskip room fuel (by omega) (by omega)

theorem passes_members {member : String → α → Reader α} (hmember : IsMemberPassed member)
    {inner steps : List Char} {a a' : α} (hcs : skipBlanks cs = '\x7b' :: inner)
    (h : membersFrom member steps true a inner = .ok (a', rest)) : Passes cs rest := by
  have hlt := length_lt_of_skipBlanks hcs
  cases steps with
  | nil => cases h
  | cons _ steps =>
    obtain ⟨⟨key?, left⟩, hnext, hread⟩ := bind_eq_ok_iff.1 h
    obtain ⟨rfl, hend⟩ | ⟨key, begun, before, rfl, hkey, hbefore, ⟨-, rfl⟩ | ⟨hfirst, -⟩⟩ :=
      nextKey_cases hnext
    · cases hread
      refine ⟨Nat.lt_trans (length_lt_of_skipBlanks hend) hlt, fun steps hsteps => ?_⟩
      obtain ⟨_, steps, rfl⟩ := List.exists_cons_of_length_pos (show 0 < steps.length by omega)
      simp only [skipFrom, hcs, hend]
      rfl
    · obtain ⟨⟨a₁, middle⟩, ha, hread⟩ := bind_eq_ok_iff.1 hread
      obtain ⟨value, hcolon, hvalue⟩ := hmember ha
      have hnew : PassesMember before middle := ⟨begun, key, left, value, hbefore, hkey, hcolon, hvalue⟩
      obtain ⟨hrest, hskip⟩ := hnew.members hmember hread
      refine ⟨by omega, fun steps hsteps => ?_⟩
      obtain ⟨_, steps, rfl⟩ := List.exists_cons_of_length_pos (show 0 < steps.length by omega)
      simp only [List.length_cons] at hsteps
      have hpass := hskip steps before (by omega) (by omega)
      have hquote : ¬ ('"' : Char) = '\x7d' := by decide
      simp only [skipFrom, hcs, hbefore, if_neg hquote]
      exact hpass
    · cases hfirst

/-! ## Any value -/

/-- What `readBy` finds: a scalar, an array or an object. -/
theorem readBy_cases {scalar : Value → α} {array object : Reader α} {a : α}
    (h : readBy scalar array object cs = .ok (a, rest)) :
    (∃ v, readScalar? (skipBlanks cs) = some (.ok (v, rest)) ∧ a = scalar v) ∨
      (∃ inner, skipBlanks cs = '[' :: inner ∧ array inner = .ok (a, rest)) ∨
      ∃ inner, skipBlanks cs = '\x7b' :: inner ∧ object inner = .ok (a, rest) := by
  unfold readBy at h
  dsimp only at h
  split at h
  case h_1 r hr =>
    obtain ⟨⟨v, left⟩, hv, hpair⟩ := map_eq_ok_iff.1 h
    cases hpair
    exact .inl ⟨v, by rw [hr, hv], rfl⟩
  case h_2 =>
    split at h
    case h_1 => cases h
    case h_2 c inner hcs =>
      split at h
      case isTrue hc => exact .inr (.inl ⟨inner, by rw [hcs, hc], h⟩)
      case isFalse =>
        split at h
        case isTrue hc => exact .inr (.inr ⟨inner, by rw [hcs, hc], h⟩)
        case isFalse => cases h

/-- **Any value that can be read can be passed over.** -/
theorem isPassed_readValue (room : Nat) : IsPassed (readValue room) := by
  induction room with
  | zero =>
    intro cs v rest h
    obtain ⟨w, hw, -⟩ | ⟨inner, -, hinner⟩ | ⟨inner, -, hinner⟩ := readBy_cases h
    · exact passes_of_skipBlanks (passes_of_readScalar? hw)
    · cases hinner
    · cases hinner
  | succ room ih =>
    intro cs v rest h
    obtain ⟨w, hw, -⟩ | ⟨inner, hcs, hinner⟩ | ⟨inner, hcs, hinner⟩ := readBy_cases h
    · exact passes_of_skipBlanks (passes_of_readScalar? hw)
    · obtain ⟨⟨vs, left⟩, hvs, hinner⟩ := bind_eq_ok_iff.1 hinner
      cases hinner
      exact passes_elements ih hcs hvs
    · obtain ⟨⟨ms, left⟩, hms, hinner⟩ := bind_eq_ok_iff.1 hinner
      cases hinner
      refine passes_members ?_ hcs hms
      intro key before behind after left h
      obtain ⟨value, hcolon, h⟩ := bind_eq_ok_iff.1 h
      obtain ⟨⟨w, left'⟩, hw, h⟩ := bind_eq_ok_iff.1 h
      cases h
      exact ⟨value, hcolon, ih hw⟩

end Shader.Json
