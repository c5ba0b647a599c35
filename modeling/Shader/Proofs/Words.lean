import Shader.Line

/-!
# The characters of names and numbers

In the text of a shader a name or a number is a word: letters, digits and underscores, with a point
or a sign only in front of a digit.

* `IsWord`: the words; `isNumeral`: whether a word is a number;
* `isIdentifier`: the names a caller may give;
* `isIdentifier_tempName`, `isWord_literal`: temporaries are names and finite numbers are numbers;
* **`tempName_injective`**: temporaries have different names.
-/

namespace Shader

/-- The characters of names. -/
def isNameChar (c : Char) : Bool := c.isAlphanum || c = '_'

/-- Whether a character belongs to the word that follows it. -/
def joins (c : Char) (word : List Char) : Bool :=
  isNameChar c || (c = '.' || c = '-') && word.head?.any Char.isDigit

/-- A word: its last character is one of a name, every other one belongs to what follows it. -/
def IsWord : List Char → Prop
  | [] => False
  | [c] => isNameChar c = true
  | c :: d :: cs => joins c (d :: cs) = true ∧ IsWord (d :: cs)

/-- Whether a word is a number. -/
def isNumeral (word : List Char) : Bool := word.head?.any fun c => c.isDigit || c = '-'

/-- Whether a text is an identifier. -/
def isIdentifier (name : String) : Bool :=
  match name.toList with
  | [] => false
  | c :: cs => (c.isAlpha || c = '_') && cs.all isNameChar

/-! ## Words -/

theorem isWord_cons {c : Char} {cs : List Char} (hj : joins c cs = true) (hcs : IsWord cs) :
    IsWord (c :: cs) := by
  cases cs with
  | nil => exact hcs.elim
  | cons d ds => exact ⟨hj, hcs⟩

theorem joins_of_isNameChar {c : Char} (h : isNameChar c = true) (word : List Char) :
    joins c word = true := by
  simp [joins, h]

theorem isWord_of_forall {c : Char} {cs : List Char} (h : ∀ d ∈ c :: cs, isNameChar d = true) :
    IsWord (c :: cs) := by
  induction cs generalizing c with
  | nil => exact h c List.mem_cons_self
  | cons d ds ih =>
    have hj := joins_of_isNameChar (h c List.mem_cons_self) (d :: ds)
    exact ⟨hj, ih fun e he => h e (List.mem_cons_of_mem c he)⟩

/-- Characters of a name may stand before any word. -/
theorem isWord_append {front word : List Char} (hf : ∀ c ∈ front, isNameChar c = true)
    (hw : IsWord word) : IsWord (front ++ word) := by
  induction front with
  | nil => exact hw
  | cons c cs ih =>
    have hj := joins_of_isNameChar (hf c List.mem_cons_self) (cs ++ word)
    exact isWord_cons hj (ih fun d hd => hf d (List.mem_cons_of_mem c hd))

theorem isNameChar_of_isDigit {c : Char} (h : c.isDigit = true) : isNameChar c = true := by
  simp [isNameChar, Char.isAlphanum, h]

/-! ## Names -/

theorem not_isDigit_of_isAlpha {c : Char} (h : c.isAlpha = true) : c.isDigit = false := by
  change (decide (c.val ≥ 'A'.val ∧ c.val ≤ 'Z'.val) ||
    (decide (c.val ≥ 'a'.val) && decide (c.val ≤ 'z'.val))) = true at h
  change (decide (c.val ≥ '0'.val) && decide (c.val ≤ '9'.val)) = false
  simp only [Bool.or_eq_true, Bool.and_eq_true, decide_eq_true_eq, Bool.and_eq_false_iff,
    decide_eq_false_iff_not, UInt32.le_iff_toNat_le, ge_iff_le, Char.reduceVal,
    UInt32.reduceToNat] at *
  omega

/-- An identifier is a word and not a number. -/
theorem isWord_of_isIdentifier {name : String} (h : isIdentifier name = true) :
    IsWord name.toList ∧ isNumeral name.toList = false := by
  unfold isIdentifier at h
  cases hn : name.toList with
  | nil => simp [hn] at h
  | cons c cs =>
    simp only [hn, Bool.and_eq_true, List.all_eq_true, Bool.or_eq_true, decide_eq_true_eq] at h
    obtain ⟨hc, hcs⟩ := h
    have hname : isNameChar c = true := by
      simp only [isNameChar, Char.isAlphanum, Bool.or_eq_true, decide_eq_true_eq]
      exact hc.imp_left .inl
    refine ⟨isWord_of_forall fun d hd => ?_, ?_⟩
    · obtain rfl | hd := List.mem_cons.1 hd
      · exact hname
      · exact hcs d hd
    · obtain ha | rfl := hc
      · have hminus : c ≠ '-' := by
          rintro rfl
          exact absurd ha (by decide)
        simp [isNumeral, not_isDigit_of_isAlpha ha, hminus]
      · rfl

/-! ## Temporaries -/

theorem toList_tempName (n : Nat) : (tempName n).toList = 'v' :: Nat.toDigits 10 n := by
  simp [tempName]

/-- **Temporaries with different numbers have different names.** -/
theorem tempName_injective {m n : Nat} (h : tempName m = tempName n) : m = n := by
  have hl := congrArg String.toList h
  rw [toList_tempName, toList_tempName] at hl
  have hd := congrArg (Nat.ofDigitChars 10 · 0) (List.cons.inj hl).2
  simpa only [Nat.ofDigitChars_ten_toDigits] using hd

theorem isDigit_of_mem_digits {n : Nat} {c : Char} (h : c ∈ Nat.toDigits 10 n) :
    c.isDigit = true :=
  Nat.isDigit_of_mem_toDigits (by decide) (by decide) h

theorem isIdentifier_tempName (n : Nat) : isIdentifier (tempName n) = true := by
  have hdigits : (Nat.toDigits 10 n).all isNameChar = true :=
    List.all_eq_true.2 fun c hc => isNameChar_of_isDigit (isDigit_of_mem_digits hc)
  simp only [isIdentifier, toList_tempName, hdigits]
  decide

/-! ## Numbers -/

theorem toList_tenthsText (n : Nat) :
    (tenthsText n).toList = Nat.toDigits 10 (n / 10) ++ '.' :: Nat.toDigits 10 (n % 10) := by
  simp [tenthsText]

/-- Tenths read as a word that starts with a digit. -/
theorem isWord_tenthsText (n : Nat) :
    IsWord (tenthsText n).toList ∧ (tenthsText n).toList.head?.any Char.isDigit = true := by
  have hdigit (k : Nat) : ∃ c cs, Nat.toDigits 10 k = c :: cs ∧ c.isDigit = true := by
    obtain ⟨c, cs, h⟩ := List.exists_cons_of_ne_nil (Nat.toDigits_ne_nil : Nat.toDigits 10 k ≠ [])
    exact ⟨c, cs, h, isDigit_of_mem_digits (h ▸ List.mem_cons_self)⟩
  have hname (k : Nat) : ∀ c ∈ Nat.toDigits 10 k, isNameChar c = true := fun c hc =>
    isNameChar_of_isDigit (isDigit_of_mem_digits hc)
  rw [toList_tenthsText]
  constructor
  · obtain ⟨c, cs, hlast, hc⟩ := hdigit (n % 10)
    have hplaces : IsWord (Nat.toDigits 10 (n % 10)) := by
      rw [hlast]
      exact isWord_of_forall (hlast ▸ hname (n % 10))
    have hpoint : joins '.' (Nat.toDigits 10 (n % 10)) = true := by simp [joins, hlast, hc]
    exact isWord_append (hname (n / 10)) (isWord_cons hpoint hplaces)
  · obtain ⟨c, cs, hfirst, hc⟩ := hdigit (n / 10)
    simp [hfirst, hc]

/-- A finite number reads as a word that is a number. -/
theorem isWord_literal (negative : Bool) (m : Magnitude) :
    IsWord (literal (.finite negative m)).toList ∧
      isNumeral (literal (.finite negative m)).toList = true := by
  have htenths (n : Nat) : IsWord (tenthsText n).toList ∧ isNumeral (tenthsText n).toList = true := by
    obtain ⟨hw, hd⟩ := isWord_tenthsText n
    refine ⟨hw, ?_⟩
    cases hl : (tenthsText n).toList with
    | nil => simp [hl] at hd
    | cons c cs =>
      rw [hl] at hd
      simp_all [isNumeral]
  rw [literal]
  split
  · exact htenths 0
  · generalize (if m.isOddQuarter then m.tenthsUp else m.tenths) = n
    cases negative with
    | false => simpa [signText] using htenths n
    | true =>
      have hminus : joins '-' (tenthsText n).toList = true := by
        simp [joins, (isWord_tenthsText n).2]
      rw [signText, if_pos rfl, String.toList_append]
      exact ⟨isWord_cons hminus (isWord_tenthsText n).1, rfl⟩

end Shader
