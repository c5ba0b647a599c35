import Mathlib.Data.Nat.Prime.Basic
import Mathlib.Tactic.NormNum
import Shader.Literal
import Shader.Proofs.Rounding
import Shader.Proofs.Words

/-!
# The tenths of a literal

A literal shows the tenths nearest to a number, a tie going away from zero.

* `IsNearestTenth`: the tenths nearest to a value; `WritesTenths`: a text that shows tenths;
* `Magnitude.isOddQuarter_of_tie`: only an odd multiple of a quarter lies halfway between two
  tenths; **`Magnitude.tenths_near`**: so the rounding to tenths of anything else meets no tie;
  `Magnitude.isOddQuarter_eq_isOddWhole`: the test may use the rounded product by four;
* **`Magnitude.tenthsUp_tie`**: the three rounded steps for an odd multiple of a quarter end at the
  tenth above it, as long as ten times the number is below `2 ^ 52`;
* **`literal_nearest_tenth`**: the literal of a finite number.
-/

namespace Shader

/-! ## Nearest tenths -/

/-- That `k` tenths are nearest to `y`, and that they are the larger ones if two are. -/
structure IsNearestTenth (k : ℕ) (y : ℚ) : Prop where
  nearest : ∀ j : ℤ, |(k : ℚ) / 10 - y| ≤ |(j : ℚ) / 10 - y|
  larger : ∀ j : ℤ, |(j : ℚ) / 10 - y| = |(k : ℚ) / 10 - y| → j ≤ k

theorem isNearestTenth_of_bounds {k : ℕ} {y : ℚ} (hlow : 10 * y - 1 / 2 < k)
    (hhigh : (k : ℚ) ≤ 10 * y + 1 / 2) : IsNearestTenth k y := by
  have hk : |(k : ℚ) / 10 - y| ≤ 1 / 20 := abs_le.2 ⟨by linarith, by linarith⟩
  have habove (j : ℤ) (h : (k : ℤ) < j) : 1 / 20 < |(j : ℚ) / 10 - y| := by
    have : (k : ℚ) + 1 ≤ j := by exact_mod_cast h
    exact lt_abs.2 (.inl (by linarith))
  have hbelow (j : ℤ) (h : j < k) : 1 / 20 ≤ |(j : ℚ) / 10 - y| := by
    have : (j : ℚ) + 1 ≤ k := by exact_mod_cast h
    exact le_abs.2 (.inr (by linarith))
  constructor
  · intro j
    rcases lt_trichotomy j k with h | rfl | h
    · exact hk.trans (hbelow j h)
    · simp
    · exact hk.trans (habove j h).le
  · intro j heq
    by_contra h
    exact (habove j (not_le.1 h)).not_ge (heq ▸ hk)

namespace Magnitude

/-! ## Odd multiples of a quarter -/

theorem denominator_eq (m : Magnitude) : m.denominator = 2 ^ (-m.exponent).toNat :=
  Nat.one_shiftLeft _

/-- A quotient of natural numbers that is an odd number. -/
theorem isOdd_quotient_iff {num den : ℕ} (hden : 0 < den) :
    (num % den = 0 && num / den % 2 = 1) = true ↔ ∃ q : ℕ, Odd q ∧ (num : ℚ) / den = q := by
  have hden' : (den : ℚ) ≠ 0 := by exact_mod_cast hden.ne'
  simp only [Bool.and_eq_true, decide_eq_true_eq]
  constructor
  · rintro ⟨hmod, hodd⟩
    refine ⟨num / den, Nat.odd_iff.2 hodd, ?_⟩
    rw [div_eq_iff hden']
    exact_mod_cast (Nat.div_mul_cancel (Nat.dvd_of_mod_eq_zero hmod)).symm
  · rintro ⟨q, hodd, heq⟩
    have hnum : num = q * den := by
      rw [div_eq_iff hden'] at heq
      exact_mod_cast heq
    subst hnum
    exact ⟨Nat.mul_mod_left q den, by rwa [Nat.mul_div_cancel q hden, ← Nat.odd_iff]⟩

theorem isOddQuarter_iff (m : Magnitude) :
    m.isOddQuarter = true ↔ ∃ q : ℕ, Odd q ∧ m.value = q / 4 := by
  rw [isOddQuarter, isOdd_quotient_iff m.denominator_pos]
  refine exists_congr fun q => and_congr_right fun _ => ?_
  rw [← m.numerator_div_denominator, eq_div_iff four_ne_zero, div_mul_eq_mul_div]
  push_cast
  rfl

/-- **What lies halfway between two tenths is an odd multiple of a quarter.** The denominator is a
power of two, so the five in twenty divides the odd number. -/
theorem isOddQuarter_of_tie {m : Magnitude} {o : ℕ} (ho : Odd o)
    (h : 20 * m.numerator = o * m.denominator) : m.isOddQuarter = true := by
  have hcoprime : Nat.Coprime 5 m.denominator := by
    rw [denominator_eq]
    exact Nat.Coprime.pow_right _ (by decide)
  obtain ⟨q, rfl⟩ : 5 ∣ o :=
    hcoprime.dvd_of_dvd_mul_right ⟨4 * m.numerator, by rw [← h]; ring⟩
  have hquarter : m.numerator * 4 = q * m.denominator := by
    rw [mul_assoc] at h
    omega
  rw [isOddQuarter, hquarter, Nat.mul_mod_left, Nat.mul_div_cancel q m.denominator_pos]
  simpa [Nat.odd_iff] using (Nat.odd_mul.1 ho).2

/-- Ten times the value as a quotient. -/
theorem cast_numerator_mul_ten (m : Magnitude) :
    ((m.numerator * 10 : ℕ) : ℚ) / m.denominator = 10 * m.value := by
  rw [← m.numerator_div_denominator]
  push_cast
  ring

/-- **The tenths of anything but an odd multiple of a quarter are less than one half away.** -/
theorem tenths_near {m : Magnitude} (h : m.isOddQuarter = false) :
    |(m.tenths : ℚ) - 10 * m.value| < 1 / 2 := by
  rw [← cast_numerator_mul_ten]
  refine abs_roundHalfEven_sub_lt m.denominator_pos fun htie => ?_
  have hdiv := Nat.div_add_mod (m.numerator * 10) m.denominator
  have hodd : 20 * m.numerator = (2 * (m.numerator * 10 / m.denominator) + 1) * m.denominator := by
    linarith
  simp [isOddQuarter_of_tie ⟨_, rfl⟩ hodd] at h

/-- Tenths of a magnitude that is close to a tenth. -/
theorem tenths_of_near {m : Magnitude} {c : ℕ} (h : |m.value - c / 10| ≤ 1 / 32) :
    m.tenths = c := by
  have hround := abs_le.1 (abs_roundHalfEven_sub_le (m.numerator * 10) m.denominator_pos)
  rw [cast_numerator_mul_ten, ← tenths] at hround
  obtain ⟨hlow, hhigh⟩ := abs_le.1 h
  have h₁ : (m.tenths : ℚ) < c + 1 := by linarith
  have h₂ : (c : ℚ) < m.tenths + 1 := by linarith
  norm_cast at h₁ h₂
  omega

/-! ## The tenth above -/

/-- The least natural number that is not below the value. -/
theorem ceil_eq {m : Magnitude} {c : ℕ} (hlow : (c : ℚ) < m.value + 1) (hhigh : m.value ≤ c) :
    m.ceil = c := by
  have hden := m.denominator_pos
  have hden' : (0 : ℚ) < m.denominator := by exact_mod_cast hden
  rw [← numerator_div_denominator, ← sub_lt_iff_lt_add, lt_div_iff₀ hden'] at hlow
  rw [← numerator_div_denominator, div_le_iff₀ hden'] at hhigh
  have hhigh' : m.numerator ≤ c * m.denominator := by exact_mod_cast hhigh
  have hlow' : c * m.denominator < m.numerator + m.denominator := by
    have : (c : ℚ) * m.denominator < m.numerator + m.denominator := by linarith
    exact_mod_cast this
  rw [ceil, ceilDiv]
  refine Nat.div_eq_of_lt_le ?_ ?_
  · omega
  · rw [Nat.add_mul, one_mul]
    omega

/-- **The rounded steps for an odd multiple of a quarter end at the tenth above it.** Ten times the
number and the integer above that are exact, as they have at most 53 bits; the tenth of the integer
is one thirty-second away at most. -/
theorem tenthsUp_tie {m : Magnitude} {q : ℕ} (hodd : Odd q) (hq : m.value = q / 4)
    (hlt : 10 * m.value < 2 ^ 52) : (m.tenthsUp : ℚ) = 10 * m.value + 1 / 2 := by
  obtain ⟨r, rfl⟩ := hodd
  have hbits : 5 * (2 * r + 1) < 2 ^ 53 := by
    have : (5 * (2 * r + 1 : ℕ) : ℚ) < 2 ^ 53 := by linarith
    exact_mod_cast this
  obtain ⟨t, ht, htvalue⟩ := Binary64.ofNat_exact (show 10 < 2 ^ 53 by decide)
  have hproduct : m.value * t.value = (5 * (2 * r + 1) : ℕ) * 2 ^ (-1 : ℤ) := by
    rw [hq, htvalue, zpow_neg_one]
    push_cast
    ring
  obtain ⟨scaled, hscaled, hscaledvalue⟩ :=
    Binary64.mul_exact false false hbits (by decide) (by decide) hproduct
  have hscaled' : scaled.value = 5 * r + 5 / 2 := by
    rw [hscaledvalue, hproduct, zpow_neg_one]
    push_cast
    ring
  have hceil : scaled.ceil = 5 * r + 3 := by
    refine ceil_eq ?_ ?_
    · rw [hscaled']
      push_cast
      linarith
    · rw [hscaled']
      push_cast
      linarith
  obtain ⟨c, hc, hcvalue⟩ := Binary64.ofNat_exact (show 5 * r + 3 < 2 ^ 53 by omega)
  have hbound : c.value / t.value < 2 ^ 53 * 2 ^ (-4 : ℤ) := by
    have : ((5 * r + 3 : ℕ) : ℚ) ≤ 2 ^ 52 := by exact_mod_cast (show 5 * r + 3 ≤ 2 ^ 52 by omega)
    rw [hcvalue, htvalue]
    norm_num at this ⊢
    linarith
  obtain ⟨up, hup, hnear⟩ := Binary64.div_near false false
    (show 0 < c.value by rw [hcvalue]; positivity) (show 0 < t.value by rw [htvalue]; positivity)
    (by decide) (by decide) hbound
  have hupTenths : up.tenths = 5 * r + 3 := by
    refine tenths_of_near ?_
    rw [hcvalue, htvalue] at hnear
    norm_num at hnear ⊢
    exact hnear
  rw [tenthsUp, ten, ht, hscaled, Binary64.ceil, hceil, hc, hup, Binary64.tenths?, hupTenths, hq,
    Option.getD_some]
  push_cast
  ring

/-! ## The test for ties -/

/-- An odd number that is a power of two times a mantissa is below the largest numbers. -/
theorem odd_lt_of_mantissa {k q : ℕ} {j : ℤ} (hk : k < 2 ^ 53) (hodd : Odd q)
    (heq : (q : ℚ) = k * 2 ^ j) : (q : ℚ) < 2 ^ 53 := by
  -- a power of two with a positive exponent would make the number even
  have hj : j ≤ 0 := by
    by_contra hpos
    obtain ⟨i, rfl⟩ : ∃ i : ℕ, j = (i : ℤ) + 1 := ⟨(j - 1).toNat, by omega⟩
    have : q = 2 * (k * 2 ^ i) := by
      rw [zpow_add_one₀ two_ne_zero, zpow_natCast] at heq
      have : (q : ℚ) = (2 * (k * 2 ^ i) : ℕ) := by
        rw [heq]
        push_cast
        ring
      exact_mod_cast this
    exact Nat.not_even_iff_odd.2 hodd ⟨k * 2 ^ i, by omega⟩
  have hle : (2 : ℚ) ^ j ≤ 1 := zpow_le_one_of_nonpos₀ one_le_two hj
  calc (q : ℚ) = k * 2 ^ j := heq
    _ ≤ k * 1 := by gcongr
    _ < 2 ^ 53 := by
      rw [mul_one]
      exact_mod_cast hk

end Magnitude

/-- Whether the number is an odd whole number. -/
def Binary64.isOddWhole : Binary64 → Bool
  | .finite _ m => m.numerator % m.denominator = 0 && m.numerator / m.denominator % 2 = 1
  | _ => false

/-- **The test for ties may round.** Four times a number has no more bits than the number, so that
the rounded product is an odd whole number just if the exact one is. -/
theorem Magnitude.isOddQuarter_eq_isOddWhole (m : Magnitude) :
    m.isOddQuarter = (Binary64.mul (.finite false m) (.ofNat 4)).isOddWhole := by
  obtain ⟨four, hfour, hvalue⟩ := Binary64.ofNat_exact (show 4 < 2 ^ 53 by decide)
  have hden : 0 < m.denominator * four.denominator :=
    Nat.mul_pos m.denominator_pos four.denominator_pos
  have hquot : ((m.numerator * four.numerator : ℕ) : ℚ) / (m.denominator * four.denominator : ℕ) =
      4 * m.value := by
    rw [cast_mul_div_mul, hvalue, mul_comm]
    rfl
  have hbits : 4 * m.value = m.mantissa * 2 ^ (m.exponent + 2) := by
    rw [value, zpow_add₀ two_ne_zero]
    ring
  have hodd : m.isOddQuarter = true ↔ ∃ q : ℕ, Odd q ∧ 4 * m.value = q := by
    rw [isOddQuarter_iff]
    refine exists_congr fun q => and_congr_right fun _ => ?_
    rw [eq_div_iff four_ne_zero, mul_comm]
  rw [hfour, Binary64.mul, Binary64.ofRatio, Bool.eq_iff_iff, hodd]
  cases hnear : nearest? (m.numerator * four.numerator) (m.denominator * four.denominator) with
  | some p =>
    have hp : p.value = 4 * m.value :=
      (nearest?_exact hden m.canonical.1 (by have := m.canonical.2.1; omega)
        (hquot.trans hbits) hnear).trans hquot
    rw [Binary64.isOddWhole, isOdd_quotient_iff p.denominator_pos, numerator_div_denominator, hp]
  | none =>
    -- no number is so large and odd
    refine iff_of_false ?_ Bool.false_ne_true
    rintro ⟨q, hq, heq⟩
    have hlt : 4 * m.value < 2 ^ 1023 :=
      (heq.trans_lt (odd_lt_of_mantissa m.canonical.1 hq (heq.symm.trans hbits))).trans
        (pow_lt_pow_right₀ one_lt_two (by decide))
    obtain ⟨p, hp⟩ := exists_nearest hden (hquot.trans_lt hlt)
    simp [hp] at hnear

/-- **The tenths of a literal are the nearest ones**, as long as a tie is not too large. -/
theorem Magnitude.isNearestTenth (m : Magnitude)
    (h : m.isOddQuarter = true → 10 * m.value < 2 ^ 52) :
    IsNearestTenth (if m.isOddQuarter then m.tenthsUp else m.tenths) m.value := by
  by_cases hquarter : m.isOddQuarter = true
  · obtain ⟨q, hodd, hq⟩ := m.isOddQuarter_iff.1 hquarter
    have hup := tenthsUp_tie hodd hq (h hquarter)
    rw [if_pos hquarter]
    exact isNearestTenth_of_bounds (by linarith) hup.le
  · obtain ⟨hlow, hhigh⟩ := abs_lt.1 (tenths_near (Bool.eq_false_iff.2 hquarter))
    rw [if_neg hquarter]
    exact isNearestTenth_of_bounds (by linarith) (by linarith)

/-! ## Texts of tenths -/

/-- A text that shows `k` tenths: digits without superfluous zeros before them, a point and a digit.
-/
def WritesTenths (text : List Char) (k : ℕ) : Prop :=
  ∃ whole tenth, text = whole ++ ['.', tenth] ∧ (∀ c ∈ whole ++ [tenth], c.isDigit = true) ∧
    whole ≠ [] ∧ (whole.head? = some '0' → whole = ['0']) ∧
    Nat.ofDigitChars 10 (whole ++ [tenth]) 0 = k

/-- Only zero has a zero as its first digit. -/
theorem eq_zero_of_head?_toDigits {n : ℕ} (h : (Nat.toDigits 10 n).head? = some '0') : n = 0 := by
  induction n using Nat.base_induction 10 (by decide) with
  | single d hd =>
    rw [Nat.toDigits_of_lt_base hd] at h
    simpa using h
  | digit d n hd hn ih =>
    rw [← Nat.toDigits_append_toDigits (by decide) hn hd,
      List.head?_append_of_ne_nil _ Nat.toDigits_ne_nil] at h
    exact absurd (ih h) hn.ne'

theorem writesTenths_tenthsText (k : ℕ) : WritesTenths (tenthsText k).toList k := by
  have hlast : Nat.toDigits 10 (k % 10) = [(k % 10).digitChar] :=
    Nat.toDigits_of_lt_base (Nat.mod_lt k (by decide))
  refine ⟨Nat.toDigits 10 (k / 10), (k % 10).digitChar, ?_, ?_, Nat.toDigits_ne_nil, ?_, ?_⟩
  · rw [toList_tenthsText, hlast]
  · intro c hc
    rcases List.mem_append.1 hc with hc | hc
    · exact isDigit_of_mem_digits hc
    · exact isDigit_of_mem_digits (hlast ▸ hc)
  · intro hzero
    rw [eq_zero_of_head?_toDigits hzero, Nat.toDigits_zero]
  · rw [Nat.ofDigitChars_append, Nat.ofDigitChars_ten_toDigits,
      Nat.ofDigitChars_cons_digitChar_of_lt_ten (Nat.mod_lt k (by decide)), Nat.ofDigitChars_nil,
      Nat.div_add_mod]

/-! ## Literals -/

/-- The exact value of a finite number. -/
def Binary64.value? : Binary64 → Option ℚ
  | .finite negative m => some (if negative then -m.value else m.value)
  | _ => none

/-- **A literal shows the nearest tenths.** For every finite number, unless it is an odd multiple of
a quarter with ten times its value at `2 ^ 52` or beyond: a sign just if the number is negative, and
the tenths nearest to its magnitude, the larger ones of two. -/
theorem literal_nearest_tenth {n : Binary64} {x : ℚ} (hn : n.value? = some x)
    (htie : (∃ q : ℤ, Odd q ∧ x = q / 4) → 10 * |x| < 2 ^ 52) :
    ∃ text k, (literal n).toList = (if x < 0 then ['-'] else []) ++ text ∧
      WritesTenths text k ∧ IsNearestTenth k |x| := by
  cases n with
  | infinite _ => simp [Binary64.value?] at hn
  | nan => simp [Binary64.value?] at hn
  | finite negative m =>
    rw [Binary64.value?, Option.some.injEq] at hn
    have habs : |x| = m.value := by
      rw [← hn, apply_ite abs, abs_neg, ite_self, abs_of_nonneg m.value_nonneg]
    rw [habs] at htie ⊢
    rcases m.value_nonneg.eq_or_lt with hzero | hpos
    · have hx : x = 0 := abs_eq_zero.1 (habs.trans hzero.symm)
      refine ⟨_, 0, ?_, writesTenths_tenthsText 0, ?_⟩
      · rw [literal, if_pos (m.isZero_iff.2 hzero.symm), hx, if_neg (lt_irrefl _)]
        rfl
      · rw [← hzero]
        exact isNearestTenth_of_bounds (by norm_num) (by norm_num)
    · refine ⟨_, if m.isOddQuarter then m.tenthsUp else m.tenths, ?_, writesTenths_tenthsText _, ?_⟩
      · have hm : ¬m.isZero = true := fun h => hpos.ne' (m.isZero_iff.1 h)
        rw [literal, if_neg hm, String.toList_append, ← hn]
        cases negative with
        | false => simp [signText, hpos.le]
        | true => simp [signText, hpos]
      · refine m.isNearestTenth fun hquarter => htie ?_
        obtain ⟨q, hodd, hq⟩ := m.isOddQuarter_iff.1 hquarter
        rw [← hn, hq]
        cases negative with
        | false => exact ⟨q, (Int.odd_coe_nat q).2 hodd, rfl⟩
        | true =>
          refine ⟨-q, ((Int.odd_coe_nat q).2 hodd).neg, ?_⟩
          push_cast
          exact (neg_div _ _).symm

/-- The tie at minus one quarter goes away from zero. -/
theorem literal_nearest_tenth_quarter :
    let n : Binary64 := .finite true ⟨0x10000000000000, -54, by decide⟩
    n.value? = some (-1 / 4) ∧
      ((∃ q : ℤ, Odd q ∧ (-1 / 4 : ℚ) = q / 4) → 10 * |(-1 / 4 : ℚ)| < 2 ^ 52) ∧
      literal n = "-0.3" ∧ ∃ text k, (literal n).toList = ['-'] ++ text ∧ WritesTenths text k ∧
        IsNearestTenth k |-1 / 4| := by
  intro n
  have hvalue : n.value? = some (-1 / 4) := by
    simp only [n, Binary64.value?, Magnitude.value, if_true, Option.some.injEq]
    norm_num
  have htie : (∃ q : ℤ, Odd q ∧ (-1 / 4 : ℚ) = q / 4) → 10 * |(-1 / 4 : ℚ)| < 2 ^ 52 := fun _ => by
    norm_num [abs_div]
  have hliteral := literal_nearest_tenth hvalue htie
  rw [if_pos (by norm_num)] at hliteral
  exact ⟨hvalue, htie, by decide +kernel, hliteral⟩

/-- Past the bound ten times the number is itself rounded, and `450359962737050.25` goes down. -/
example : literal (.finite false ⟨0x199999999999a4, -4, by decide⟩) = "450359962737050.2" := by
  decide +kernel

end Shader
