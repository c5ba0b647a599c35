import Shader.Json.Reader
import Shader.Json.Writer

/-!
# Numbers and strings inside a text

A number that is a text of its own is read in the same way where something follows that cannot be a
part of it. A string is read back from its text, whatever follows.

* `Ends`: where a number is at its end; `IsLocal`: readers that do not care what is behind that;
* **`isLocal_readNumber`**: numbers; `Json.readValue_append`: the numbers among the values;
* `readChar_writeChar`, **`readString_writeString`**: strings.
-/

namespace Shader.Json

variable {α : Type}

/-- No number goes on here. -/
def Ends (rest : List Char) : Prop :=
  ∀ c ∈ rest.head?, isDigit c = false ∧ c ≠ '.' ∧ isExponentMark c = false

theorem ends_nil : Ends [] := by simp [Ends]

theorem ends_cons {c : Char} (h : isDigit c = false ∧ c ≠ '.' ∧ isExponentMark c = false)
    (rest : List Char) : Ends (c :: rest) := by
  simpa [Ends] using h

/-! ## Digits -/

section Digits

variable {rest : List Char}

theorem Ends.any_isDigit (h : Ends rest) : rest.head?.any isDigit = false := by
  cases rest with
  | nil => rfl
  | cons c rest => exact (h c rfl).1

theorem Ends.digit? {c : Char} (h : Ends (c :: rest)) : digit? c = none := by
  have hc := (h c rfl).1
  unfold isDigit at hc
  simpa using hc

theorem takeWhile_isDigit_append (h : Ends rest) (cs : List Char) :
    (cs ++ rest).takeWhile isDigit = cs.takeWhile isDigit := by
  induction cs with
  | nil =>
    cases rest with
    | nil => rfl
    | cons c rest => simp [(h c rfl).1]
  | cons c cs ih =>
    rw [List.cons_append, List.takeWhile_cons, List.takeWhile_cons, ih]

theorem dropWhile_isDigit_append (h : Ends rest) (cs : List Char) :
    (cs ++ rest).dropWhile isDigit = cs.dropWhile isDigit ++ rest := by
  induction cs with
  | nil =>
    cases rest with
    | nil => rfl
    | cons c rest => simp [(h c rfl).1]
  | cons c cs ih =>
    rw [List.cons_append, List.dropWhile_cons, List.dropWhile_cons, ih]
    split <;> rfl

theorem wholeDigits_append (h : Ends rest) (s : Nat) (cs : List Char) :
    wholeDigits s (cs ++ rest) =
      ((wholeDigits s cs).1, (wholeDigits s cs).2.1, (wholeDigits s cs).2.2 ++ rest) := by
  induction cs generalizing s with
  | nil =>
    cases rest with
    | nil => rfl
    | cons c rest => simp [wholeDigits, h.digit?]
  | cons c cs ih =>
    simp only [List.cons_append, wholeDigits]
    cases digit? c with
    | none => rfl
    | some d =>
      dsimp only
      split
      · exact ih _
      · rw [takeWhile_isDigit_append h, dropWhile_isDigit_append h]

theorem fractionDigits_append (h : Ends rest) (s : Nat) (cs : List Char) :
    fractionDigits s (cs ++ rest) =
      ((fractionDigits s cs).1, (fractionDigits s cs).2.1, (fractionDigits s cs).2.2 ++ rest) := by
  induction cs generalizing s with
  | nil =>
    cases rest with
    | nil => rfl
    | cons c rest => simp [fractionDigits, h.digit?]
  | cons c cs ih =>
    simp only [List.cons_append, fractionDigits]
    cases digit? c with
    | none => rfl
    | some d =>
      dsimp only
      split
      · rw [ih]
      · rw [dropWhile_isDigit_append h]

theorem exponentFrom_append (h : Ends rest) (e : Nat) (cs : List Char) :
    exponentFrom e (cs ++ rest) = ((exponentFrom e cs).1, (exponentFrom e cs).2 ++ rest) := by
  induction cs generalizing e with
  | nil =>
    cases rest with
    | nil => rfl
    | cons c rest => simp [exponentFrom, h.digit?]
  | cons c cs ih =>
    simp only [List.cons_append, exponentFrom]
    cases digit? c with
    | none => rfl
    | some d =>
      dsimp only
      split
      · exact ih _
      · rfl

end Digits

/-! ## Numbers -/

/-- Readers that read in the same way whatever follows the end of a number. -/
def IsLocal (reader : Reader α) : Prop :=
  ∀ {cs rest v left}, Ends rest → reader cs = .ok (v, left) →
    reader (cs ++ rest) = .ok (v, left ++ rest)

theorem isLocal_floatBefore (negative : Bool) (significand : Nat) (exponent : Int) :
    IsLocal (floatBefore negative significand exponent) := by
  intro cs rest v left _ h
  unfold floatBefore at h ⊢
  cases hf : floatOfParts negative significand exponent with
  | error f =>
    rw [hf] at h
    cases h
  | ok x =>
    rw [hf] at h
    cases h
    rfl

theorem isLocal_exponentDigits : IsLocal exponentDigits := by
  intro cs rest v left hrest h
  cases cs with
  | nil => cases h
  | cons c cs =>
    simp only [exponentDigits, List.cons_append] at h ⊢
    split at h
    case isTrue hc =>
      have hdigits := Except.ok.inj h
      rw [if_pos hc, ← List.cons_append, exponentFrom_append hrest, hdigits]
    case isFalse => cases h

theorem exponentSign_append {cs : List Char} (h : cs ≠ []) (rest : List Char) :
    exponentSign (cs ++ rest) = ((exponentSign cs).1, (exponentSign cs).2 ++ rest) := by
  obtain ⟨c, cs, rfl⟩ := List.exists_cons_of_ne_nil h
  simp only [List.cons_append, exponentSign]
  split
  · rfl
  · split <;> rfl

theorem isLocal_readExponent (negative : Bool) (significand : Nat) (exponent : Int) :
    IsLocal (readExponent negative significand exponent) := by
  intro cs rest v left hrest h
  by_cases hcs : cs = []
  · subst hcs
    cases h
  simp only [readExponent, exponentSign_append hcs] at h ⊢
  cases hd : exponentDigits (exponentSign cs).2 with
  | error f =>
    rw [hd] at h
    cases h
  | ok r =>
    obtain ⟨e, left'⟩ := r
    rw [hd] at h
    rw [isLocal_exponentDigits hrest hd]
    cases e with
    | some e => exact isLocal_floatBefore _ _ _ hrest h
    | none =>
      simp only [bind, Except.bind] at h ⊢
      split at h
      · cases h
      · rename_i hz
        rw [if_neg hz, dropWhile_isDigit_append hrest]
        cases h
        rfl

theorem isLocal_afterFraction (negative : Bool) (significand : Nat) (exponent : Int) :
    IsLocal (afterFraction negative significand exponent) := by
  intro cs rest v left hrest h
  cases cs with
  | nil =>
    have hlocal := isLocal_floatBefore negative significand exponent hrest h
    cases rest with
    | nil => exact hlocal
    | cons c rest => simpa [afterFraction, (hrest c rfl).2.2] using hlocal
  | cons c cs =>
    simp only [afterFraction, List.cons_append] at h ⊢
    split at h
    case isTrue hc =>
      rw [if_pos hc]
      exact isLocal_readExponent _ _ _ hrest h
    case isFalse hc =>
      rw [if_neg hc, ← List.cons_append]
      exact isLocal_floatBefore _ _ _ hrest h

theorem isLocal_readFraction (negative : Bool) (significand : Nat) (exponent : Int) :
    IsLocal (readFraction negative significand exponent) := by
  intro cs rest v left hrest h
  cases cs with
  | nil => cases h
  | cons c cs =>
    simp only [readFraction, List.cons_append] at h ⊢
    split at h
    case isTrue hc =>
      rw [if_pos hc, ← List.cons_append, fractionDigits_append hrest]
      exact isLocal_afterFraction _ _ _ hrest h
    case isFalse => cases h

theorem isLocal_afterWhole (negative : Bool) (significand dropped : Nat) :
    IsLocal (afterWhole negative significand dropped) := by
  intro cs rest v left hrest h
  have hplain : IsLocal fun cs =>
      if dropped = 0 then .ok (integerOf negative significand, cs)
      else floatBefore negative significand dropped cs := by
    intro cs rest v left hrest h
    dsimp only at h ⊢
    split at h
    case isTrue hd =>
      rw [if_pos hd]
      cases h
      rfl
    case isFalse hd =>
      rw [if_neg hd]
      exact isLocal_floatBefore _ _ _ hrest h
  cases cs with
  | nil =>
    have hlocal := hplain hrest h
    cases rest with
    | nil => exact hlocal
    | cons c rest => simpa [afterWhole, hrest c rfl] using hlocal
  | cons c cs =>
    simp only [afterWhole, List.cons_append] at h ⊢
    by_cases hpoint : c = '.'
    · rw [if_pos hpoint] at h ⊢
      exact isLocal_readFraction _ _ _ hrest h
    rw [if_neg hpoint] at h ⊢
    by_cases hmark : isExponentMark c = true
    · rw [if_pos hmark] at h ⊢
      exact isLocal_readExponent _ _ _ hrest h
    · rw [if_neg hmark] at h ⊢
      rw [← List.cons_append]
      exact hplain hrest h

/-- **A number is read in the same way whatever follows it.** -/
theorem isLocal_readNumber (negative : Bool) : IsLocal (readNumber negative) := by
  intro cs rest v left hrest h
  cases cs with
  | nil => cases h
  | cons c cs =>
    simp only [readNumber, List.cons_append] at h ⊢
    by_cases hzero : c = '0'
    · rw [if_pos hzero] at h ⊢
      have hhead : (cs ++ rest).head?.any isDigit = cs.head?.any isDigit := by
        cases cs with
        | nil => exact hrest.any_isDigit
        | cons d cs => rfl
      rw [hhead]
      split at h
      case isTrue => cases h
      case isFalse hd =>
        rw [if_neg hd]
        exact isLocal_afterWhole _ _ _ hrest h
    rw [if_neg hzero] at h ⊢
    split at h
    case isTrue hc =>
      rw [if_pos hc, ← List.cons_append, wholeDigits_append hrest]
      exact isLocal_afterWhole _ _ _ hrest h
    case isFalse => cases h

/-- Integers and floating-point numbers. -/
def Value.IsNumber : Value → Prop
  | .integer _ | .float _ => True
  | _ => False

theorem readScalar?_append {cs rest left : List Char} {v : Value} (hrest : Ends rest)
    (hv : v.IsNumber) (h : readScalar? cs = some (.ok (v, left))) :
    readScalar? (cs ++ rest) = some (.ok (v, left ++ rest)) := by
  have hnamed {word w : _} {cs : List Char} (hw : ¬ Value.IsNumber w) :
      readNamed word w cs ≠ .ok (v, left) := by
    intro h
    unfold readNamed at h
    cases hr : readWord word cs with
    | error s =>
      rw [hr] at h
      cases h
    | ok rest =>
      rw [hr] at h
      cases h
      exact hw hv
  cases cs with
  | nil => cases h
  | cons c cs =>
    simp only [readScalar?, List.cons_append] at h ⊢
    by_cases hn : c = 'n'
    · rw [if_pos hn] at h
      exact absurd (Option.some.inj h) (hnamed id)
    rw [if_neg hn] at h ⊢
    by_cases ht : c = 't'
    · rw [if_pos ht] at h
      exact absurd (Option.some.inj h) (hnamed id)
    rw [if_neg ht] at h ⊢
    by_cases hf : c = 'f'
    · rw [if_pos hf] at h
      exact absurd (Option.some.inj h) (hnamed id)
    rw [if_neg hf] at h ⊢
    by_cases hminus : c = '-'
    · rw [if_pos hminus] at h ⊢
      exact congrArg some (isLocal_readNumber _ hrest (Option.some.inj h))
    rw [if_neg hminus] at h ⊢
    by_cases hdigit : isDigit c = true
    · rw [if_pos hdigit] at h ⊢
      exact congrArg some (isLocal_readNumber _ hrest (Option.some.inj h))
    rw [if_neg hdigit] at h ⊢
    split at h
    · -- a string is no number
      cases hr : readString cs with
      | error s =>
        rw [hr] at h
        cases h
      | ok r =>
        rw [hr] at h
        cases h
        exact absurd hv id
    · cases h

theorem readValue_of_readScalar? {cs left : List Char} {v : Value} (room : Nat)
    (h : readScalar? (skipBlanks cs) = some (.ok (v, left))) :
    readValue room cs = .ok (v, left) := by
  cases room <;> simp only [readValue, readBy, h] <;> rfl

theorem readScalar?_of_readValue {cs left : List Char} {v : Value} {room : Nat} (hv : v.IsNumber)
    (h : readValue room cs = .ok (v, left)) :
    readScalar? (skipBlanks cs) = some (.ok (v, left)) := by
  have key {array object : Reader Value} (ha : ∀ cs, array cs ≠ .ok (v, left))
      (ho : ∀ cs, object cs ≠ .ok (v, left)) (h : readBy id array object cs = .ok (v, left)) :
      readScalar? (skipBlanks cs) = some (.ok (v, left)) := by
    unfold readBy at h
    dsimp only at h
    split at h
    case h_1 r hr =>
      rw [hr]
      cases r with
      | error s => cases h
      | ok r => exact congrArg some h
    case h_2 hr =>
      split at h
      · cases h
      split at h
      · exact absurd h (ha _)
      split at h
      · exact absurd h (ho _)
      · cases h
  cases room with
  | zero => exact key (fun _ h => by cases h) (fun _ h => by cases h) h
  | succ room =>
    refine key (fun cs h => ?_) (fun cs h => ?_) h
    · simp only [bind, Except.bind] at h
      split at h
      · cases h
      · cases h
        exact hv
    · simp only [bind, Except.bind] at h
      split at h
      · cases h
      · cases h
        exact hv

/-- A number among the values is read in the same way whatever follows it. -/
theorem readValue_append {cs rest : List Char} {v : Value} {room : Nat} (hv : v.IsNumber)
    (h : readValue room cs = .ok (v, [])) (hrest : Ends rest) (room' : Nat) :
    readValue room' (cs ++ rest) = .ok (v, rest) := by
  have hscalar := readScalar?_of_readValue hv h
  have hne : ¬ (skipBlanks cs).isEmpty := by
    intro he
    rw [List.isEmpty_iff.1 he] at hscalar
    cases hscalar
  refine readValue_of_readScalar? room' ?_
  have hskip : skipBlanks (cs ++ rest) = skipBlanks cs ++ rest :=
    (List.dropWhile_append ..).trans (if_neg hne)
  rw [hskip]
  exact readScalar?_append hrest hv hscalar

/-! ## Strings -/

theorem hexDigit?_hexDigit : ∀ n < 16, hexDigit? (hexDigit n) = some n := by decide

theorem readHex_hexDigit {n : Nat} (h : n < 32) (rest : List Char) :
    readHex ('0' :: '0' :: hexDigit (n / 16) :: hexDigit (n % 16) :: rest) = .ok (n, rest) := by
  have hzero : hexDigit? '0' = some 0 := rfl
  have hhigh := hexDigit?_hexDigit (n / 16) (by omega)
  have hlow := hexDigit?_hexDigit (n % 16) (by omega)
  simp only [readHex, hzero, hhigh, hlow, Nat.zero_mul, Nat.zero_add, Nat.div_add_mod']

/-- **A character is read back from its text.** -/
theorem readChar_writeChar (c : Char) (rest : List Char) :
    readChar (writeChar c ++ rest) = .ok (some c, rest) := by
  have heq {n : Nat} (h : c.toNat = n) : c = Char.ofNat n := by rw [← h, Char.ofNat_toNat]
  unfold writeChar
  split
  case isTrue h => rw [h]; rfl
  case isFalse hquote =>
  split
  case isTrue h => rw [h]; rfl
  case isFalse hslash =>
  split
  case isTrue h => rw [heq h]; rfl
  split
  case isTrue h => rw [heq h]; rfl
  split
  case isTrue h => rw [heq h]; rfl
  split
  case isTrue h => rw [heq h]; rfl
  split
  case isTrue h => rw [heq h]; rfl
  split
  case isTrue hcontrol =>
    have hlow : isLowHalf c.toNat = false := by
      unfold isLowHalf
      simp only [Bool.and_eq_false_iff, decide_eq_false_iff_not]
      omega
    have hhigh : isHighHalf c.toNat = false := by
      unfold isHighHalf
      simp only [Bool.and_eq_false_iff, decide_eq_false_iff_not]
      omega
    have hescape : readEscape ('u' :: '0' :: '0' :: hexDigit (c.toNat / 16) ::
        hexDigit (c.toNat % 16) :: rest) = .ok (c, rest) := by
      simp only [readEscape, readHex_hexDigit hcontrol, hlow, hhigh, bind, Except.bind, pure,
        Except.pure, if_true, Bool.false_eq_true, if_false, Char.ofNat_toNat]
    have hquote : ('\\' : Char) ≠ '"' := by decide
    simp only [readChar, List.cons_append, List.nil_append, if_neg hquote, if_true, hescape, bind,
      Except.bind, pure, Except.pure]
  case isFalse hcontrol =>
    simp only [readChar, List.cons_append, List.nil_append, if_neg hquote, if_neg hslash,
      if_neg hcontrol]

theorem writeChar_ne_nil (c : Char) : writeChar c ≠ [] := by
  unfold writeChar
  repeat' split
  all_goals simp

/-- The characters of a string are read back, if there are enough steps. -/
theorem readChars_writeString (chars rest : List Char) {steps : List Char}
    (h : chars.length < steps.length) :
    readChars steps (chars.flatMap writeChar ++ '"' :: rest) = .ok (chars, rest) := by
  induction chars generalizing steps with
  | nil =>
    cases steps with
    | nil => simp at h
    | cons _ steps => rfl
  | cons c chars ih =>
    cases steps with
    | nil => simp at h
    | cons _ steps =>
      rw [List.flatMap_cons, List.append_assoc]
      have hmore : readChars steps (chars.flatMap writeChar ++ '"' :: rest) = .ok (chars, rest) :=
        ih (by simpa using h)
      simp only [readChars, readChar_writeChar, hmore, bind, Except.bind, pure, Except.pure]

/-- **A string is read back from its text**, behind the opening mark. -/
theorem readString_writeString (s : String) (rest : List Char) :
    readString (s.toList.flatMap writeChar ++ '"' :: rest) = .ok (s, rest) := by
  have hlength : s.toList.length < (s.toList.flatMap writeChar ++ '"' :: rest).length := by
    have hle : s.toList.length ≤ (s.toList.flatMap writeChar).length := by
      induction s.toList with
      | nil => exact Nat.le_refl _
      | cons c chars ih =>
        have := List.length_pos_iff.2 (writeChar_ne_nil c)
        simp only [List.flatMap_cons, List.length_append, List.length_cons]
        omega
    simp only [List.length_append, List.length_cons]
    omega
  simp only [readString, readChars_writeString _ rest hlength, bind, Except.bind, pure, Except.pure,
    String.ofList_toList]

end Shader.Json
