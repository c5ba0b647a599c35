import Mathlib.Algebra.Order.Field.Power
import Mathlib.Data.Rat.Floor
import Mathlib.Tactic.FieldSimp
import Mathlib.Tactic.Linarith
import Mathlib.Tactic.Positivity
import Mathlib.Tactic.Ring
import Shader.Binary64.Arithmetic

/-!
# Rounding to binary numbers

What the numbers of 64 bits are worth, and how far from a quotient the nearest of them lies.

* `Magnitude.value`: the exact value of a magnitude, a rational number;
* `gridExponent_spec`: the grid on which a quotient is rounded has 53 bits, or is the finest;
* **`value_of_nearest?`**: the magnitude nearest to a quotient lies on that grid;
  **`exists_nearest`**: there is one, unless the quotient is too large;
* **`nearest?_exact`**: a quotient with at most 53 bits is not rounded at all; `nearest?_near`: any
  other one moves by half a step of the grid at most;
* `Binary64.mul_exact`, `Binary64.div_near`: what this says of products and quotients of numbers.
-/

namespace Shader

/-! ## Powers of two -/

theorem two_zpow_pos (e : ℤ) : (0 : ℚ) < 2 ^ e := zpow_pos two_pos e

/-- A power of two as a quotient of two with natural exponents. -/
theorem two_pow_toNat_div (e : ℤ) : (2 : ℚ) ^ e.toNat / 2 ^ (-e).toNat = 2 ^ e := by
  rw [← zpow_natCast, ← zpow_natCast, ← zpow_sub₀ two_ne_zero]
  congr 1
  omega

/-- A quotient on the scale of a power of two. -/
theorem cast_shiftLeft_div (num den : ℕ) (e : ℤ) :
    ((num <<< (-e).toNat : ℕ) : ℚ) / (den <<< e.toNat : ℕ) = (num : ℚ) / den / 2 ^ e := by
  rw [Nat.shiftLeft_eq, Nat.shiftLeft_eq, ← two_pow_toNat_div e]
  push_cast
  have h₁ : (2 : ℚ) ^ e.toNat ≠ 0 := by positivity
  have h₂ : (2 : ℚ) ^ (-e).toNat ≠ 0 := by positivity
  field_simp

/-- Bounds of a natural number by its logarithm. -/
theorem log2_bounds {n : ℕ} (h : 0 < n) :
    (2 : ℚ) ^ (n.log2 : ℤ) ≤ n ∧ (n : ℚ) < 2 ^ ((n.log2 : ℤ) + 1) := by
  have hle : 2 ^ n.log2 ≤ n := Nat.log2_self_le h.ne'
  have hlt : n < 2 ^ (n.log2 + 1) := Nat.lt_log2_self
  constructor
  · rw [zpow_natCast]
    exact_mod_cast hle
  · rw [← Nat.cast_succ, zpow_natCast]
    exact_mod_cast hlt

/-! ## Rounded quotients -/

theorem sub_div_eq (r num : ℕ) {den : ℕ} (h : 0 < den) :
    (r : ℚ) - num / den = (den * r - num) / den := by
  have hden : (den : ℚ) ≠ 0 := by exact_mod_cast h.ne'
  field_simp

/-- A rounded quotient is at most one half away. -/
theorem abs_roundHalfEven_sub_le (num : ℕ) {den : ℕ} (h : 0 < den) :
    |(roundHalfEven num den : ℚ) - num / den| ≤ 1 / 2 := by
  obtain ⟨hlow, hhigh⟩ := roundHalfEven_near num h
  have hden : (0 : ℚ) < den := by exact_mod_cast h
  have hlow' : (2 : ℚ) * num ≤ 2 * (den * roundHalfEven num den) + den := by exact_mod_cast hlow
  have hhigh' : (2 : ℚ) * (den * roundHalfEven num den) ≤ 2 * num + den := by exact_mod_cast hhigh
  rw [sub_div_eq _ num h, abs_div, abs_of_pos hden, div_le_iff₀ hden, abs_le]
  constructor
  · linarith
  · linarith

/-- A quotient that is not halfway between two natural numbers is rounded by less than one half. -/
theorem abs_roundHalfEven_sub_lt {num den : ℕ} (h : 0 < den) (htie : 2 * (num % den) ≠ den) :
    |(roundHalfEven num den : ℚ) - num / den| < 1 / 2 := by
  have hnear : 2 * num < 2 * (den * roundHalfEven num den) + den ∧
      2 * (den * roundHalfEven num den) < 2 * num + den := by
    have hd := Nat.div_add_mod num den
    have hm := Nat.mod_lt num h
    simp only [roundHalfEven]
    generalize num / den = q at *
    generalize num % den = r at *
    split
    · omega
    · rw [if_pos (by omega), Nat.mul_succ]
      omega
  have hden : (0 : ℚ) < den := by exact_mod_cast h
  have hlow : (2 : ℚ) * num < 2 * (den * roundHalfEven num den) + den := by exact_mod_cast hnear.1
  have hhigh : (2 : ℚ) * (den * roundHalfEven num den) < 2 * num + den := by exact_mod_cast hnear.2
  rw [sub_div_eq _ num h, abs_div, abs_of_pos hden, div_lt_iff₀ hden, abs_lt]
  constructor
  · linarith
  · linarith

/-- Rounding does not pass a natural number from below. -/
theorem roundHalfEven_le {num den c : ℕ} (h : 0 < den) (hle : (num : ℚ) / den ≤ c) :
    roundHalfEven num den ≤ c := by
  have hnear := (abs_le.1 (abs_roundHalfEven_sub_le num h)).2
  have hlt : (roundHalfEven num den : ℚ) < (c + 1 : ℕ) := by
    push_cast
    linarith
  exact Nat.lt_succ_iff.1 (by exact_mod_cast hlt)

/-- Rounding does not pass a natural number from above. -/
theorem le_roundHalfEven {num den c : ℕ} (h : 0 < den) (hle : (c : ℚ) ≤ num / den) :
    c ≤ roundHalfEven num den := by
  have hnear := (abs_le.1 (abs_roundHalfEven_sub_le num h)).1
  have hlt : (c : ℚ) < (roundHalfEven num den + 1 : ℕ) := by
    push_cast
    linarith
  exact Nat.lt_succ_iff.1 (by exact_mod_cast hlt)

/-- A quotient that is a natural number is its own rounding. -/
theorem roundHalfEven_of_div_eq {num den c : ℕ} (h : 0 < den) (heq : (num : ℚ) / den = c) :
    roundHalfEven num den = c :=
  le_antisymm (roundHalfEven_le h heq.le) (le_roundHalfEven h heq.ge)

namespace Magnitude

/-! ## Values -/

/-- The exact value of a magnitude. -/
def value (m : Magnitude) : ℚ := m.mantissa * 2 ^ m.exponent

theorem value_nonneg (m : Magnitude) : 0 ≤ m.value :=
  mul_nonneg (Nat.cast_nonneg _) (two_zpow_pos _).le

/-- The value is the quotient of the numerator and the denominator. -/
theorem numerator_div_denominator (m : Magnitude) :
    (m.numerator : ℚ) / m.denominator = m.value := by
  rw [numerator, denominator, Nat.shiftLeft_eq, Nat.one_shiftLeft, value, ← two_pow_toNat_div]
  push_cast
  rw [mul_div_assoc]

theorem numerator_pos {m : Magnitude} (h : 0 < m.value) : 0 < m.numerator := by
  rw [← numerator_div_denominator] at h
  rcases Nat.eq_zero_or_pos m.numerator with h₀ | hpos
  · simp [h₀] at h
  · exact hpos

/-- The quotient that a product rounds. -/
theorem cast_mul_div_mul (a b : Magnitude) :
    ((a.numerator * b.numerator : ℕ) : ℚ) / (a.denominator * b.denominator : ℕ) =
      a.value * b.value := by
  rw [← a.numerator_div_denominator, ← b.numerator_div_denominator, div_mul_div_comm]
  push_cast
  rfl

/-- The quotient that a division rounds. -/
theorem cast_mul_div_mul_swap (a b : Magnitude) :
    ((a.numerator * b.denominator : ℕ) : ℚ) / (a.denominator * b.numerator : ℕ) =
      a.value / b.value := by
  rw [← a.numerator_div_denominator, ← b.numerator_div_denominator, div_div_div_eq]
  push_cast
  rfl

theorem isZero_iff (m : Magnitude) : m.isZero = true ↔ m.value = 0 := by
  rw [isZero, beq_iff_eq, value, mul_eq_zero, Nat.cast_eq_zero]
  exact (or_iff_left (two_zpow_pos _).ne').symm

theorem value_of_ofParts? {mantissa : ℕ} {exponent : ℤ} {m : Magnitude}
    (h : ofParts? mantissa exponent = some m) : m.value = mantissa * 2 ^ exponent := by
  unfold ofParts? at h
  split at h
  · cases h
    rfl
  · cases h

/-! ## The grid of a quotient -/

/-- To compare a quotient with a multiple of a power of two, as natural numbers. -/
theorem shiftLeft_lt_iff (num : ℕ) {den : ℕ} (hden : 0 < den) (c : ℕ) (e : ℤ) :
    num <<< (-e).toNat < c * den <<< e.toNat ↔ (num : ℚ) / den < c * 2 ^ e := by
  have hscaled : (0 : ℚ) < (den <<< e.toNat : ℕ) := by
    rw [Nat.shiftLeft_eq]
    positivity
  rw [← div_lt_iff₀ (two_zpow_pos e), ← cast_shiftLeft_div, div_lt_iff₀ hscaled]
  exact_mod_cast Iff.rfl

/-- On its grid a quotient has at most 53 bits, and no fewer unless the grid is the finest. -/
theorem gridExponent_spec {num den : ℕ} (hnum : 0 < num) (hden : 0 < den) :
    (num : ℚ) / den < 2 ^ 53 * 2 ^ gridExponent num den ∧ -1074 ≤ gridExponent num den ∧
      (gridExponent num den = -1074 ∨ 2 ^ 52 * 2 ^ gridExponent num den ≤ (num : ℚ) / den) := by
  obtain ⟨hnum₁, hnum₂⟩ := log2_bounds hnum
  obtain ⟨hden₁, hden₂⟩ := log2_bounds hden
  have hdenpos : (0 : ℚ) < den := by exact_mod_cast hden
  obtain ⟨e₀, he₀⟩ : ∃ e₀ : ℤ, e₀ = num.log2 - den.log2 - 52 := ⟨_, rfl⟩
  have hlow : 2 ^ 52 * 2 ^ (e₀ - 1) ≤ (num : ℚ) / den := by
    rw [le_div_iff₀ hdenpos]
    calc (2 : ℚ) ^ 52 * 2 ^ (e₀ - 1) * den
        ≤ 2 ^ 52 * 2 ^ (e₀ - 1) * 2 ^ ((den.log2 : ℤ) + 1) := by gcongr
      _ = 2 ^ (num.log2 : ℤ) := by
        rw [← zpow_natCast 2 52, ← zpow_add₀ two_ne_zero, ← zpow_add₀ two_ne_zero]
        congr 1
        push_cast
        omega
      _ ≤ num := hnum₁
  have hhigh : (num : ℚ) / den < 2 ^ 53 * 2 ^ e₀ := by
    rw [div_lt_iff₀ hdenpos]
    calc (num : ℚ) < 2 ^ ((num.log2 : ℤ) + 1) := hnum₂
      _ = 2 ^ 53 * 2 ^ e₀ * 2 ^ (den.log2 : ℤ) := by
        rw [← zpow_natCast 2 53, ← zpow_add₀ two_ne_zero, ← zpow_add₀ two_ne_zero]
        congr 1
        push_cast
        omega
      _ ≤ 2 ^ 53 * 2 ^ e₀ * den := by gcongr
  -- the first guess has 53 bits or 52, and the comparison tells which
  obtain ⟨e₁, he₁, hlow₁, hhigh₁⟩ : ∃ e₁ : ℤ, gridExponent num den = max e₁ (-1074) ∧
      2 ^ 52 * 2 ^ e₁ ≤ (num : ℚ) / den ∧ (num : ℚ) / den < 2 ^ 53 * 2 ^ e₁ := by
    have hcompare := shiftLeft_lt_iff num hden 0x10000000000000 e₀
    rw [gridExponent, ← he₀]
    by_cases h : num <<< (-e₀).toNat < 0x10000000000000 * den <<< e₀.toNat
    · refine ⟨e₀ - 1, by rw [if_pos h], hlow, ?_⟩
      rw [hcompare] at h
      rw [zpow_sub_one₀ two_ne_zero]
      norm_num at h ⊢
      linarith
    · refine ⟨e₀, by rw [if_neg h], ?_, hhigh⟩
      rw [hcompare, not_lt] at h
      norm_num at h ⊢
      exact h
  rw [he₁]
  refine ⟨hhigh₁.trans_le ?_, le_max_right _ _, ?_⟩
  · have : (2 : ℚ) ^ e₁ ≤ 2 ^ max e₁ (-1074) := zpow_le_zpow_right₀ one_le_two (le_max_left _ _)
    gcongr
  · rcases le_total e₁ (-1074) with h | h
    · exact .inl (max_eq_right h)
    · exact .inr (by rwa [max_eq_left h])

/-- A quotient with at most 53 bits before a place lies on a grid that is no coarser. -/
theorem gridExponent_le {num den : ℕ} (hnum : 0 < num) (hden : 0 < den) {c : ℤ} (hc : -1074 ≤ c)
    (h : (num : ℚ) / den < 2 ^ 53 * 2 ^ c) : gridExponent num den ≤ c := by
  obtain ⟨-, -, heq | hlow⟩ := gridExponent_spec hnum hden
  · omega
  · have hlt : (2 : ℚ) ^ gridExponent num den < 2 ^ (c + 1) := by
      rw [zpow_add_one₀ two_ne_zero]
      linarith
    have := (zpow_lt_zpow_iff_right₀ one_lt_two).1 hlt
    omega

/-! ## The nearest magnitude -/

section
variable {num den : ℕ}

/-- The denominator of a quotient on its grid. -/
theorem shiftLeft_pos (h : 0 < den) (k : ℕ) : 0 < den <<< k := by
  rw [Nat.shiftLeft_eq]
  positivity

/-- The nearest magnitude is the quotient on its grid, rounded. -/
theorem value_of_nearest? (hnum : 0 < num) {m : Magnitude} (h : nearest? num den = some m) :
    m.value = roundHalfEven (num <<< (-gridExponent num den).toNat)
      (den <<< (gridExponent num den).toNat) * 2 ^ gridExponent num den := by
  rw [nearest?, if_neg hnum.ne'] at h
  simp only at h
  split at h
  · next hcarry =>
    rw [value_of_ofParts? h, hcarry, zpow_add_one₀ two_ne_zero]
    push_cast
    ring
  · exact value_of_ofParts? h

/-- **A quotient below the largest power of two has a nearest magnitude.** -/
theorem exists_nearest (hden : 0 < den) (h : (num : ℚ) / den < 2 ^ 1023) :
    ∃ m, nearest? num den = some m := by
  rcases Nat.eq_zero_or_pos num with rfl | hnum
  · exact ⟨zero, rfl⟩
  obtain ⟨hhigh, hleast, hlow⟩ := gridExponent_spec hnum hden
  have hmost : gridExponent num den ≤ 970 := by
    refine gridExponent_le hnum hden (by decide) (h.trans_eq ?_)
    rw [← zpow_natCast, ← zpow_natCast, ← zpow_add₀ two_ne_zero]
    rfl
  rw [nearest?, if_neg hnum.ne']
  generalize gridExponent num den = e at *
  have hscaled := cast_shiftLeft_div num den e
  have hle : roundHalfEven (num <<< (-e).toNat) (den <<< e.toNat) ≤ 2 ^ 53 := by
    refine roundHalfEven_le (shiftLeft_pos hden _) ?_
    rw [hscaled, div_le_iff₀ (two_zpow_pos e)]
    exact_mod_cast hhigh.le
  have hge : e = -1074 ∨ 2 ^ 52 ≤ roundHalfEven (num <<< (-e).toNat) (den <<< e.toNat) := by
    refine hlow.imp_right fun hlow => le_roundHalfEven (shiftLeft_pos hden _) ?_
    rw [hscaled, le_div_iff₀ (two_zpow_pos e)]
    exact_mod_cast hlow
  simp only [ofParts?]
  generalize roundHalfEven (num <<< (-e).toNat) (den <<< e.toNat) = r at *
  split
  · exact ⟨_, dif_pos (by omega)⟩
  · exact ⟨_, dif_pos (by omega)⟩

/-- **A quotient with at most 53 bits is not rounded.** -/
theorem nearest?_exact (hden : 0 < den) {k : ℕ} {j : ℤ} (hk : k < 2 ^ 53) (hj : -1074 ≤ j)
    (heq : (num : ℚ) / den = k * 2 ^ j) {m : Magnitude} (h : nearest? num den = some m) :
    m.value = num / den := by
  rcases Nat.eq_zero_or_pos num with rfl | hnum
  · cases h
    simp [value, zero]
  have hgrid : gridExponent num den ≤ j := by
    refine gridExponent_le hnum hden hj (heq.trans_lt ?_)
    have := two_zpow_pos j
    gcongr
    exact_mod_cast hk
  rw [value_of_nearest? hnum h]
  generalize gridExponent num den = e at *
  -- on the grid the quotient is a natural number
  have hwhole : ((num <<< (-e).toNat : ℕ) : ℚ) / (den <<< e.toNat : ℕ) =
      (k * 2 ^ (j - e).toNat : ℕ) := by
    rw [cast_shiftLeft_div, heq, mul_div_assoc, ← zpow_sub₀ two_ne_zero]
    push_cast
    rw [← zpow_natCast, Int.toNat_of_nonneg (by omega)]
  rw [roundHalfEven_of_div_eq (shiftLeft_pos hden _) hwhole, ← hwhole, cast_shiftLeft_div,
    div_mul_cancel₀ _ (two_zpow_pos e).ne']

/-- **Rounding moves a quotient by half a step of the grid at most.** -/
theorem nearest?_near (hnum : 0 < num) (hden : 0 < den) {c : ℤ} (hc : -1074 ≤ c)
    (hlt : (num : ℚ) / den < 2 ^ 53 * 2 ^ c) {m : Magnitude} (h : nearest? num den = some m) :
    |m.value - num / den| ≤ 2 ^ c / 2 := by
  have hgrid := gridExponent_le hnum hden hc hlt
  rw [value_of_nearest? hnum h]
  generalize gridExponent num den = e at *
  have hround := abs_roundHalfEven_sub_le (num <<< (-e).toNat) (shiftLeft_pos hden e.toNat)
  rw [cast_shiftLeft_div] at hround
  have hpos := two_zpow_pos e
  calc |(roundHalfEven (num <<< (-e).toNat) (den <<< e.toNat) : ℚ) * 2 ^ e - num / den|
      = |(roundHalfEven (num <<< (-e).toNat) (den <<< e.toNat) : ℚ) - num / den / 2 ^ e|
          * 2 ^ e := by
        rw [← abs_of_pos hpos, ← abs_mul, abs_of_pos hpos, sub_mul, div_mul_cancel₀ _ hpos.ne']
    _ ≤ 1 / 2 * 2 ^ e := by gcongr
    _ ≤ 1 / 2 * 2 ^ c := by
        have : (2 : ℚ) ^ e ≤ 2 ^ c := zpow_le_zpow_right₀ one_le_two hgrid
        gcongr
    _ = 2 ^ c / 2 := by ring

end

end Magnitude

/-! ## Products and quotients -/

namespace Binary64
open Magnitude
variable {num den : ℕ}

/-- What has at most 53 bits before the last place is below the largest power of two. -/
theorem lt_largest {v : ℚ} {c : ℤ} (hc : c ≤ 970) (h : v < 2 ^ 53 * 2 ^ c) : v < 2 ^ 1023 := by
  have hle : (2 : ℚ) ^ c ≤ 2 ^ (970 : ℤ) := zpow_le_zpow_right₀ one_le_two hc
  calc v < 2 ^ 53 * 2 ^ c := h
    _ ≤ 2 ^ 53 * 2 ^ (970 : ℤ) := by gcongr
    _ = 2 ^ 1023 := by
      rw [← zpow_natCast, ← zpow_natCast, ← zpow_add₀ two_ne_zero]
      rfl

/-- A quotient with at most 53 bits is a number. -/
theorem ofRatio_exact (negative : Bool) (hden : 0 < den) {k : ℕ} {j : ℤ} (hk : k < 2 ^ 53)
    (hj : -1074 ≤ j) (hj' : j ≤ 970) (heq : (num : ℚ) / den = k * 2 ^ j) :
    ∃ m, ofRatio negative num den = .finite negative m ∧ m.value = num / den := by
  have hlt : (num : ℚ) / den < 2 ^ 53 * 2 ^ j := by
    have := two_zpow_pos j
    rw [heq]
    gcongr
    exact_mod_cast hk
  obtain ⟨m, hm⟩ := exists_nearest hden (lt_largest hj' hlt)
  exact ⟨m, by rw [ofRatio, hm], nearest?_exact hden hk hj heq hm⟩

/-- A natural number with at most 53 bits is a number. -/
theorem ofNat_exact {n : ℕ} (h : n < 2 ^ 53) :
    ∃ m, Binary64.ofNat n = .finite false m ∧ m.value = n := by
  have heq : (n : ℚ) / (1 : ℕ) = n * 2 ^ (0 : ℤ) := by simp
  obtain ⟨m, hm, hvalue⟩ := ofRatio_exact false Nat.one_pos h (by decide) (by decide) heq
  exact ⟨m, hm, by simpa using hvalue⟩

/-- **A product with at most 53 bits is exact.** -/
theorem mul_exact (s t : Bool) {a b : Magnitude} {k : ℕ} {j : ℤ} (hk : k < 2 ^ 53) (hj : -1074 ≤ j)
    (hj' : j ≤ 970) (heq : a.value * b.value = k * 2 ^ j) :
    ∃ m, mul (.finite s a) (.finite t b) = .finite (s ^^ t) m ∧ m.value = a.value * b.value := by
  have hquot := cast_mul_div_mul a b
  obtain ⟨m, hm, hvalue⟩ := ofRatio_exact (s ^^ t)
    (Nat.mul_pos a.denominator_pos b.denominator_pos) hk hj hj' (hquot.trans heq)
  exact ⟨m, hm, hvalue.trans hquot⟩

/-- **A quotient moves by half a step at most.** -/
theorem div_near (s t : Bool) {a b : Magnitude} (ha : 0 < a.value) (hb : 0 < b.value) {c : ℤ}
    (hc : -1074 ≤ c) (hc' : c ≤ 970) (hlt : a.value / b.value < 2 ^ 53 * 2 ^ c) :
    ∃ m, div (.finite s a) (.finite t b) = .finite (s ^^ t) m ∧
      |m.value - a.value / b.value| ≤ 2 ^ c / 2 := by
  have hquot := cast_mul_div_mul_swap a b
  have hb' : b.isZero = false := by
    rw [Bool.eq_false_iff, Ne, isZero_iff]
    exact hb.ne'
  have hnum : 0 < a.numerator * b.denominator :=
    Nat.mul_pos (numerator_pos ha) b.denominator_pos
  have hden : 0 < a.denominator * b.numerator :=
    Nat.mul_pos a.denominator_pos (numerator_pos hb)
  rw [← hquot] at hlt ⊢
  obtain ⟨m, hm⟩ := exists_nearest hden (lt_largest hc' hlt)
  refine ⟨m, ?_, nearest?_near hnum hden hc hlt hm⟩
  simp only [div, hb', Bool.false_eq_true, if_false, ofRatio, hm]

end Binary64

end Shader
