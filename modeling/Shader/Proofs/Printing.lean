import Shader.Proofs.Ranges
import Shader.Proofs.Tenths

/-!
# The form of a literal

The literal of a number is printed after a few steps of floating-point arithmetic, each of which may
overflow. The steps are spelled out here, and none of those whose result is printed does.

* `Binary64.fixed`: the text of a number with one decimal place, which is no decimal if the number is
  not finite; `stepwise`: the steps of a literal, which end with such a text;
* `exists_tenthsUp`: a tie is small enough for its steps; **`literal_eq_stepwise`**: literals are
  printed by these steps;
* `IsDecimal`: a sign, digits, a point and one digit; **`isDecimal_literal`**: literals of finite
  numbers are such texts.
-/

namespace Shader

/-! ## Steps -/

namespace Binary64

/-- The text of a number with one decimal place, an exact half going to the even neighbour. -/
def fixed : Binary64 → String
  | .nan => "NaN"
  | .infinite negative => signText negative ++ "inf"
  | .finite negative m => signText negative ++ tenthsText m.tenths

/-- Whether the number has a sign. -/
def isNegative : Binary64 → Bool
  | .finite negative _ | .infinite negative => negative
  | .nan => false

end Binary64

/-- The text of a number, by steps that are rounded to numbers. Four times the number tells a tie. The
tenth above a tie is that of the integer above ten times the number. -/
def stepwise (n : Binary64) : String :=
  if n.isZero then "0.0"
  else if (n.abs.mul (.ofNat 4)).isOddWhole then
    signText n.isNegative ++ ((n.abs.mul Magnitude.ten).ceil.div Magnitude.ten).fixed
  else n.fixed

namespace Magnitude

/-- An odd multiple of a quarter has its last bit at the quarter, so it is not large. -/
theorem bounds_of_isOddQuarter {m : Magnitude} (h : m.isOddQuarter = true) :
    0 < m.value ∧ m.value < 2 ^ 51 := by
  obtain ⟨q, hodd, hq⟩ := m.isOddQuarter_iff.1 h
  have hbits : (q : ℚ) = m.mantissa * 2 ^ (m.exponent + 2) := by
    have hfour : (q : ℚ) = 4 * m.value := by
      rw [hq]
      ring
    rw [hfour, value, zpow_add₀ two_ne_zero]
    ring
  have hlt := odd_lt_of_mantissa m.canonical.1 hodd hbits
  have hpos : (0 : ℚ) < q := by exact_mod_cast hodd.pos
  rw [hq]
  constructor
  · positivity
  · linarith

/-- The integer above a magnitude is less than one away. -/
theorem ceil_lt (m : Magnitude) : (m.ceil : ℚ) < m.value + 1 := by
  have hden := m.denominator_pos
  have hden' : (0 : ℚ) < m.denominator := by exact_mod_cast hden
  have hle : m.ceil * m.denominator ≤ m.numerator + m.denominator - 1 := Nat.div_mul_le_self _ _
  have hlt : m.ceil * m.denominator < m.numerator + m.denominator := by omega
  have hlt' : (m.ceil : ℚ) * m.denominator < m.numerator + m.denominator := by exact_mod_cast hlt
  rw [← numerator_div_denominator, ← sub_lt_iff_lt_add, lt_div_iff₀ hden']
  linarith

theorem exists_ten : ∃ t, ten = .finite false t ∧ t.value = 10 :=
  Binary64.ofNat_exact (show 10 < 2 ^ 53 by decide)

/-- Ten times a small number. -/
theorem exists_mul_ten {m : Magnitude} (hpos : 0 < m.value) (h : m.value < 2 ^ 51) :
    ∃ p, Binary64.mul (.finite false m) ten = .finite false p ∧ p.value ≤ 10 * m.value + 2 := by
  obtain ⟨t, hten, htvalue⟩ := exists_ten
  have hden : 0 < m.denominator * t.denominator := Nat.mul_pos m.denominator_pos t.denominator_pos
  have hnum : 0 < m.numerator * t.numerator := by
    refine Nat.mul_pos (numerator_pos hpos) (numerator_pos ?_)
    rw [htvalue]
    norm_num
  have hproduct : ((m.numerator * t.numerator : ℕ) : ℚ) / (m.denominator * t.denominator : ℕ) =
      10 * m.value := by
    rw [cast_mul_div_mul, htvalue, mul_comm]
  have hbound : 10 * m.value < 2 ^ 53 * 2 ^ (2 : ℤ) := by
    norm_num at h ⊢
    linarith
  obtain ⟨p, hp⟩ := exists_nearest hden (hproduct.trans_lt (Binary64.lt_largest (by decide) hbound))
  refine ⟨p, ?_, ?_⟩
  · rw [hten, Binary64.mul, Binary64.ofRatio, hp]
    rfl
  · have hnear := nearest?_near hnum hden (by decide) (hproduct.trans_lt hbound) hp
    rw [hproduct] at hnear
    have hhigh := (abs_le.1 hnear).2
    norm_num at hhigh
    linarith

/-- **No step overflows for a tie**: ten times the number, the integer above it and a tenth of that are
all numbers. -/
theorem exists_tenthsUp {m : Magnitude} (h : m.isOddQuarter = true) :
    ∃ up, (Binary64.mul (.finite false m) ten).ceil.div ten = .finite false up ∧
      m.tenthsUp = up.tenths := by
  obtain ⟨hpos, hsmall⟩ := bounds_of_isOddQuarter h
  obtain ⟨p, hmul, hp⟩ := exists_mul_ten hpos hsmall
  obtain ⟨t, hten, htvalue⟩ := exists_ten
  have hceil : (p.ceil : ℚ) < 2 ^ 56 := by
    have hlt := p.ceil_lt
    norm_num at hsmall
    linarith
  obtain ⟨c, hc⟩ : ∃ c, Binary64.ofNat p.ceil = .finite false c := by
    refine Binary64.exists_ofRatio false Nat.one_pos ?_
    rw [Nat.cast_one, div_one]
    exact hceil.trans (pow_lt_pow_right₀ one_lt_two (by decide))
  obtain ⟨up, hup⟩ := Binary64.exists_div false false c (show 2 ≤ t.value by rw [htvalue]; norm_num)
  have hsteps : (Binary64.mul (.finite false m) ten).ceil.div ten = .finite false up := by
    rw [hmul, Binary64.ceil, hc, hten]
    exact hup
  refine ⟨up, hsteps, ?_⟩
  rw [tenthsUp, hsteps]
  rfl

end Magnitude

/-- **A literal is printed step by step**, whatever the number. -/
theorem literal_eq_stepwise (n : Binary64) : literal n = stepwise n := by
  obtain ⟨four, hfour, hvalue⟩ := Binary64.ofNat_exact (show 4 < 2 ^ 53 by decide)
  unfold stepwise
  cases n with
  | nan =>
    simp [Binary64.isZero, Binary64.abs, hfour, Binary64.mul, Binary64.isOddWhole, literal,
      Binary64.fixed]
  | infinite negative =>
    have hzero : four.isZero = false := by
      rw [Bool.eq_false_iff, Ne, Magnitude.isZero_iff, hvalue]
      norm_num
    simp [Binary64.isZero, Binary64.abs, hfour, Binary64.mul, hzero, Binary64.isOddWhole, literal,
      Binary64.fixed]
  | finite negative m =>
    have htie : m.isOddQuarter =
        ((Binary64.finite negative m).abs.mul (.ofNat 4)).isOddWhole :=
      m.isOddQuarter_eq_isOddWhole
    rw [literal, ← htie]
    by_cases hzero : m.isZero = true
    · simp [Binary64.isZero, hzero]
    have hzero' : ¬(Binary64.finite negative m).isZero = true := hzero
    rw [if_neg hzero, if_neg hzero']
    by_cases hquarter : m.isOddQuarter = true
    · obtain ⟨up, hsteps, htenths⟩ := Magnitude.exists_tenthsUp hquarter
      have hsign : signText false = "" := rfl
      rw [if_pos hquarter, if_pos hquarter, Binary64.abs, hsteps, Binary64.fixed, hsign,
        String.empty_append, htenths, Binary64.isNegative]
    · rw [if_neg hquarter, if_neg hquarter, Binary64.fixed]

/-! ## Form -/

/-- A text of an optional sign, digits, a point and one digit. -/
def IsDecimal (text : String) : Prop :=
  ∃ sign whole tenth, text.toList = sign ++ whole ++ ['.', tenth] ∧ (sign = [] ∨ sign = ['-']) ∧
    whole ≠ [] ∧ ∀ c ∈ whole ++ [tenth], c.isDigit = true

theorem isDecimal_fixed {n : Binary64} (h : n.isFinite = true) : IsDecimal n.fixed := by
  obtain ⟨negative, m, rfl⟩ := Binary64.exists_of_isFinite h
  obtain ⟨whole, tenth, htext, hdigits, hwhole, -, -⟩ := writesTenths_tenthsText m.tenths
  refine ⟨(signText negative).toList, whole, tenth, ?_, ?_, hwhole, hdigits⟩
  · rw [Binary64.fixed, String.toList_append, htext, List.append_assoc]
  · cases negative with
    | false => exact .inl rfl
    | true => exact .inr rfl

/-- The text of a number without a sign may get one. -/
theorem IsDecimal.signed {m : Magnitude} (negative : Bool)
    (h : IsDecimal (Binary64.finite negative m).fixed) :
    IsDecimal (signText negative ++ (Binary64.finite false m).fixed) := by
  simpa [Binary64.fixed, signText] using h

/-- **The literal of a finite number is a decimal**: never an infinity, an exponent or a word. -/
theorem isDecimal_literal {n : Binary64} (h : n.isFinite = true) : IsDecimal (literal n) := by
  obtain ⟨negative, m, rfl⟩ := Binary64.exists_of_isFinite h
  rw [literal_eq_stepwise, stepwise]
  split
  · have hzero : Binary64.zero.fixed = "0.0" := by decide +kernel
    exact hzero ▸ isDecimal_fixed rfl
  · split
    case isTrue htie =>
      have hquarter : m.isOddQuarter = true := m.isOddQuarter_eq_isOddWhole.trans htie
      obtain ⟨up, hsteps, -⟩ := Magnitude.exists_tenthsUp hquarter
      rw [Binary64.abs, hsteps, Binary64.isNegative]
      exact (isDecimal_fixed rfl).signed negative
    case isFalse => exact isDecimal_fixed rfl

end Shader
