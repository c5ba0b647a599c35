import Shader.Proofs.Listing
import Shader.Proofs.Rounding

/-!
# What is read stays within limits

A number is read in rounded steps, none of which overflows unnoticed, so every number that is read is
finite. And no value that is read has more containers inside each other than its reader had room for.

* `isFinite_ofRatio`, `exists_div`: results below the largest power of two are finite;
  `exists_powerOfTen`: the powers of ten;
* **`isFinite_of_ofParts?`**: the number with a significand and an exponent is finite, if there is one;
* `Value.Within`: values with finite numbers and so many containers inside each other;
  `within_of_readScalar?`: scalars;
* **`within_of_readValue`**: every value that is read.
-/

namespace Shader

/-! ## Finite results -/

namespace Magnitude

/-- Half of any magnitude is below the largest power of two. -/
theorem half_value_lt (m : Magnitude) : m.value / 2 < 2 ^ 1023 := by
  have hexponent : m.exponent - 1 ≤ 970 := by
    have := m.canonical.2.2.1
    omega
  refine Binary64.lt_largest hexponent ?_
  rw [value, zpow_sub_one₀ two_ne_zero, mul_div_assoc, div_eq_mul_inv]
  have hpos := two_zpow_pos m.exponent
  have hbits : (m.mantissa : ℚ) < 2 ^ 53 := by exact_mod_cast m.canonical.1
  gcongr

/-- Rounding takes no more than half from a quotient that is not small. -/
theorem half_le_of_nearest? {num den : ℕ} (hden : 0 < den) (hone : 1 ≤ (num : ℚ) / den)
    {m : Magnitude} (h : nearest? num den = some m) : (num : ℚ) / den / 2 ≤ m.value := by
  have hnum : 0 < num := by
    rcases Nat.eq_zero_or_pos num with rfl | hpos
    · norm_num at hone
    · exact hpos
  obtain ⟨hhigh, hleast, hlow⟩ := gridExponent_spec hnum hden
  have hstep : 2 ^ gridExponent num den ≤ (num : ℚ) / den := by
    rcases hlow with heq | hlow
    · rw [heq]
      exact (zpow_le_one_of_nonpos₀ one_le_two (by decide)).trans hone
    · have hpos := two_zpow_pos (gridExponent num den)
      linarith
  have hnear := (abs_le.1 (nearest?_near hnum hden hleast hhigh h)).1
  linarith

end Magnitude

namespace Binary64
open Magnitude

theorem exists_of_isFinite {x : Binary64} (h : x.isFinite = true) : ∃ s m, x = .finite s m := by
  cases x with
  | finite s m => exact ⟨s, m, rfl⟩
  | infinite s => cases h
  | nan => cases h

/-- A quotient below the largest power of two is rounded to a finite number. -/
theorem exists_ofRatio (negative : Bool) {num den : ℕ} (hden : 0 < den)
    (h : (num : ℚ) / den < 2 ^ 1023) : ∃ m, ofRatio negative num den = .finite negative m := by
  obtain ⟨m, hm⟩ := exists_nearest hden h
  exact ⟨m, by rw [ofRatio, hm]⟩

theorem isFinite_ofRatio (negative : Bool) {num den : ℕ} (hden : 0 < den)
    (h : (num : ℚ) / den < 2 ^ 1023) : (ofRatio negative num den).isFinite = true := by
  obtain ⟨m, hm⟩ := exists_ofRatio negative hden h
  rw [hm]
  rfl

theorem isFinite_ofNat {n : ℕ} (h : n < 2 ^ 1023) : (Binary64.ofNat n).isFinite = true := by
  refine isFinite_ofRatio false Nat.one_pos ?_
  rw [Nat.cast_one, div_one]
  exact_mod_cast h

theorem isFinite_ofInt {i : ℤ} (h : i.natAbs < 2 ^ 1023) : (Binary64.ofInt i).isFinite = true := by
  refine isFinite_ofRatio _ Nat.one_pos ?_
  rw [Nat.cast_one, div_one]
  exact_mod_cast h

theorem isFinite_neg {x : Binary64} (h : x.isFinite = true) : x.neg.isFinite = true := by
  obtain ⟨s, m, rfl⟩ := exists_of_isFinite h
  rfl

/-- **A finite number divided by two or more is finite.** -/
theorem exists_div (s t : Bool) (a : Magnitude) {b : Magnitude} (hb : 2 ≤ b.value) :
    ∃ m, div (.finite s a) (.finite t b) = .finite (s ^^ t) m := by
  have hpos : 0 < b.value := two_pos.trans_le hb
  have hzero : b.isZero = false := by
    rw [Bool.eq_false_iff, Ne, isZero_iff]
    exact hpos.ne'
  simp only [div, hzero, Bool.false_eq_true, if_false]
  refine exists_ofRatio _ (Nat.mul_pos a.denominator_pos (numerator_pos hpos)) ?_
  rw [cast_mul_div_mul_swap]
  calc a.value / b.value ≤ a.value / 2 := by
        have := a.value_nonneg
        gcongr
    _ < 2 ^ 1023 := a.half_value_lt

/-- A product of finite numbers is finite, or it is infinite and so tells that it is too large. -/
theorem isFinite_mul {x y : Binary64} (hx : x.isFinite = true) (hy : y.isFinite = true)
    (h : (x.mul y).isInfinite = false) : (x.mul y).isFinite = true := by
  obtain ⟨s, a, rfl⟩ := exists_of_isFinite hx
  obtain ⟨t, b, rfl⟩ := exists_of_isFinite hy
  rw [mul, ofRatio] at h ⊢
  cases hm : nearest? (a.numerator * b.numerator) (a.denominator * b.denominator) with
  | some m => rfl
  | none =>
    rw [hm] at h
    cases h

end Binary64

namespace Json

/-! ## Powers of ten -/

theorem tenPow_le {m n : ℕ} (h : m ≤ n) : tenPow m ≤ tenPow n := Nat.pow_le_pow_right (by decide) h

theorem exists_nearest_tenPow {n : ℕ} (h : n ≤ greatestPower) :
    ∃ m, Magnitude.nearest? (tenPow n) 1 = some m := by
  by_cases hn : n = 308
  · -- this one lies between the largest power of two and the largest number
    subst hn
    exact Option.isSome_iff_exists.1 (by decide +kernel)
  · refine Magnitude.exists_nearest Nat.one_pos ?_
    have hle : n ≤ 307 := by
      unfold greatestPower at h
      omega
    have hpow : tenPow n < 2 ^ 1023 :=
      calc tenPow n ≤ tenPow 307 := tenPow_le hle
        _ < 2 ^ 1023 := by decide +kernel
    rw [Nat.cast_one, div_one]
    exact_mod_cast hpow

/-- **The powers of ten are finite**, and two or more if they have an exponent. -/
theorem exists_powerOfTen {n : ℕ} (h : n ≤ greatestPower) :
    ∃ m, powerOfTen n = .finite false m ∧ (1 ≤ n → 2 ≤ m.value) := by
  obtain ⟨m, hm⟩ := exists_nearest_tenPow h
  refine ⟨m, by rw [powerOfTen, Binary64.ofNat, Binary64.ofRatio, hm], fun hn => ?_⟩
  have hten : 10 ≤ tenPow n := tenPow_le hn
  have hquot : (10 : ℚ) ≤ (tenPow n : ℚ) / (1 : ℕ) := by
    rw [Nat.cast_one, div_one]
    exact_mod_cast hten
  have hhalf := Magnitude.half_le_of_nearest? Nat.one_pos (by linarith) hm
  linarith

theorem isFinite_powerOfTen {n : ℕ} (h : n ≤ greatestPower) : (powerOfTen n).isFinite = true := by
  obtain ⟨m, hm, -⟩ := exists_powerOfTen h
  rw [hm]
  rfl

/-- A finite number divided by a power of ten is finite. -/
theorem isFinite_div_powerOfTen {x : Binary64} (hx : x.isFinite = true) {n : ℕ} (hn : 1 ≤ n)
    (h : n ≤ greatestPower) : (x.div (powerOfTen n)).isFinite = true := by
  obtain ⟨b, hb, htwo⟩ := exists_powerOfTen h
  obtain ⟨s, a, rfl⟩ := Binary64.exists_of_isFinite hx
  obtain ⟨m, hm⟩ := Binary64.exists_div s false a (htwo hn)
  rw [hb, hm]
  rfl

theorem isFinite_scaleDown {x : Binary64} (hx : x.isFinite = true) (times : ℕ) :
    (scaleDown x times).isFinite = true := by
  induction times generalizing x with
  | zero => exact hx
  | succ times ih =>
    rw [scaleDown]
    split
    · exact hx
    · exact ih (isFinite_div_powerOfTen hx (by decide) (Nat.le_refl _))

/-! ## Numbers from their parts -/

theorem isFinite_ofNat_of_lt {significand : ℕ} (h : significand < significandBound) :
    (Binary64.ofNat significand).isFinite = true :=
  Binary64.isFinite_ofNat (Nat.lt_trans h (by decide +kernel))

/-- **A number with a significand and an exponent is finite**, if there is one at all. -/
theorem isFinite_of_ofParts? {significand : ℕ} {exponent : ℤ} {x : Binary64}
    (hs : significand < significandBound) (h : ofParts? significand exponent = some x) :
    x.isFinite = true := by
  have hnat := isFinite_ofNat_of_lt hs
  simp only [ofParts?] at h
  split at h
  case isTrue hdown =>
    cases h
    -- behind the full steps an exponent from 1 to 308 is left
    have hsplit := Nat.div_add_mod (exponent.natAbs - 1) greatestPower
    have hmod := Nat.mod_lt (exponent.natAbs - 1) (show 0 < greatestPower by decide)
    exact isFinite_div_powerOfTen (isFinite_scaleDown hnat _) (by omega) (by omega)
  case isFalse hup =>
    split at h
    case isTrue hle =>
      split at h
      case isTrue => cases h
      case isFalse hinfinite =>
        cases h
        have hpower : exponent.natAbs ≤ greatestPower := by omega
        exact Binary64.isFinite_mul hnat (isFinite_powerOfTen hpower) (Bool.eq_false_iff.2 hinfinite)
    case isFalse =>
      split at h
      · cases h
        exact hnat
      · cases h

theorem wholeDigits_lt {significand : ℕ} (h : significand < significandBound) (cs : List Char) :
    (wholeDigits significand cs).1 < significandBound := by
  induction cs generalizing significand with
  | nil => exact h
  | cons c cs ih =>
    unfold wholeDigits
    split
    · exact h
    · split
      case isTrue hlt => exact ih hlt
      case isFalse => exact h

theorem fractionDigits_lt {significand : ℕ} (h : significand < significandBound) (cs : List Char) :
    (fractionDigits significand cs).1 < significandBound := by
  induction cs generalizing significand with
  | nil => exact h
  | cons c cs ih =>
    unfold fractionDigits
    split
    · exact h
    · split
      case isTrue hlt => exact ih hlt
      case isFalse => exact h

/-! ## Values -/

/-- A value with finite numbers and at most `room` containers inside each other. -/
inductive Value.Within : (room : ℕ) → Value → Prop
  | null {room : ℕ} : Within room .null
  | bool {room : ℕ} (b : Bool) : Within room (.bool b)
  | string {room : ℕ} (s : String) : Within room (.string s)
  | integer {room : ℕ} {i : ℤ} (h : (Binary64.ofInt i).isFinite = true) : Within room (.integer i)
  | float {room : ℕ} {x : Binary64} (h : x.isFinite = true) : Within room (.float x)
  | array {room : ℕ} {vs : List Value} (h : ∀ v ∈ vs, Within room v) : Within (room + 1) (.array vs)
  | object {room : ℕ} {ms : List (String × Value)} (h : ∀ m ∈ ms, Within room m.2) :
    Within (room + 1) (.object ms)

section Scalars

variable {negative : Bool} {significand : ℕ} {exponent : ℤ} {cs rest : List Char} {v : Value}
  (room : ℕ)

theorem within_of_floatBefore (hs : significand < significandBound)
    (h : floatBefore negative significand exponent cs = .ok (v, rest)) : v.Within room := by
  obtain ⟨w, hw, hpair⟩ := map_eq_ok_iff.1 h
  obtain rfl : v = w := (Prod.mk.inj hpair).1
  have hvalue := placed_eq_ok hw
  unfold floatOfParts at hvalue
  split at hvalue
  case h_1 x hx =>
    cases hvalue
    have hfinite := isFinite_of_ofParts? hs hx
    split
    · exact .float (Binary64.isFinite_neg hfinite)
    · exact .float hfinite
  case h_2 => cases hvalue

/-- An integer has 64 bits, and what does not fit is a float. -/
theorem within_integerOf (hs : significand < significandBound) :
    (integerOf negative significand).Within room := by
  have hlarge : significandBound < 2 ^ 1023 := by decide +kernel
  unfold integerOf
  split
  · exact .integer (Binary64.isFinite_ofInt (Nat.lt_trans hs hlarge))
  · split
    · exact .float (Binary64.isFinite_neg (isFinite_ofNat_of_lt hs))
    · refine .integer (Binary64.isFinite_ofInt ?_)
      rw [Int.natAbs_neg]
      exact Nat.lt_trans hs hlarge

theorem within_of_readExponent (hs : significand < significandBound)
    (h : readExponent negative significand exponent cs = .ok (v, rest)) : v.Within room := by
  simp only [readExponent] at h
  obtain ⟨⟨found, left⟩, -, h⟩ := bind_eq_ok_iff.1 h
  cases found with
  | some e => exact within_of_floatBefore room hs h
  | none =>
    dsimp only at h
    split at h
    · cases h
    · cases h
      split
      · exact .float rfl
      · exact .float rfl

theorem within_of_afterFraction (hs : significand < significandBound)
    (h : afterFraction negative significand exponent cs = .ok (v, rest)) : v.Within room := by
  unfold afterFraction at h
  split at h
  · split at h
    · exact within_of_readExponent room hs h
    · exact within_of_floatBefore room hs h
  · exact within_of_floatBefore room hs h

theorem within_of_readFraction (hs : significand < significandBound)
    (h : readFraction negative significand exponent cs = .ok (v, rest)) : v.Within room := by
  cases cs with
  | nil => cases h
  | cons c cs =>
    simp only [readFraction] at h
    split at h
    · have hlt := fractionDigits_lt hs (c :: cs)
      exact within_of_afterFraction room hlt h
    · cases h

theorem within_of_afterWhole {dropped : ℕ} (hs : significand < significandBound)
    (h : afterWhole negative significand dropped cs = .ok (v, rest)) : v.Within room := by
  have hplain {cs : List Char} (h : (if dropped = 0 then .ok (integerOf negative significand, cs)
      else floatBefore negative significand dropped cs) = .ok (v, rest)) : v.Within room := by
    split at h
    · cases h
      exact within_integerOf room hs
    · exact within_of_floatBefore room hs h
  unfold afterWhole at h
  dsimp only at h
  split at h
  · split at h
    · exact within_of_readFraction room hs h
    · split at h
      · exact within_of_readExponent room hs h
      · exact hplain h
  · exact hplain h

theorem within_of_readNumber (h : readNumber negative cs = .ok (v, rest)) : v.Within room := by
  have hzero : 0 < significandBound := by decide
  cases cs with
  | nil => cases h
  | cons c cs =>
    simp only [readNumber] at h
    split at h
    · split at h
      · cases h
      · exact within_of_afterWhole room hzero h
    · split at h
      · have hlt := wholeDigits_lt hzero (c :: cs)
        exact within_of_afterWhole room hlt h
      · cases h

theorem within_of_readScalar? (h : readScalar? cs = some (.ok (v, rest))) : v.Within room := by
  have hnamed {word cs : List Char} {w : Value} (hw : w.Within room)
      (h : some (readNamed word w cs) = some (.ok (v, rest))) : v.Within room := by
    obtain ⟨left, -, hpair⟩ := map_eq_ok_iff.1 (Option.some.inj h)
    obtain rfl : v = w := (Prod.mk.inj hpair).1
    exact hw
  unfold readScalar? at h
  split at h
  · cases h
  · split at h
    · exact hnamed .null h
    split at h
    · exact hnamed (.bool true) h
    split at h
    · exact hnamed (.bool false) h
    split at h
    · exact within_of_readNumber room (Option.some.inj h)
    split at h
    · exact within_of_readNumber room (Option.some.inj h)
    split at h
    · obtain ⟨⟨s, left⟩, -, hpair⟩ := map_eq_ok_iff.1 (Option.some.inj h)
      obtain rfl : v = .string s := (Prod.mk.inj hpair).1
      exact .string s
    · cases h

end Scalars

/-! ## Containers -/

section Containers

variable {α : Type} {P : α → Prop} {cs rest : List Char}

theorem forall_of_elementsFrom {item : Reader α}
    (hitem : ∀ {cs a rest}, item cs = .ok (a, rest) → P a) {steps : List Char} {first : Bool}
    {as : List α} (h : elementsFrom item steps first cs = .ok (as, rest)) : ∀ a ∈ as, P a := by
  induction steps generalizing first cs as with
  | nil => cases h
  | cons _ steps ih =>
    obtain ⟨⟨more, left⟩, -, hread⟩ := bind_eq_ok_iff.1 h
    cases more with
    | false =>
      cases hread
      simp
    | true =>
      obtain ⟨⟨a, middle⟩, ha, hread⟩ := bind_eq_ok_iff.1 hread
      obtain ⟨⟨as', left'⟩, has, hread⟩ := bind_eq_ok_iff.1 hread
      cases hread
      exact List.forall_mem_cons.2 ⟨hitem ha, ih has⟩

/-- **What every member keeps, all members keep.** -/
theorem holds_of_readMembers {member : String → α → Reader α}
    (hmember : ∀ {key a cs a' rest}, P a → member key a cs = .ok (a', rest) → P a') {a a' : α}
    (ha : P a) (h : readMembers member a cs = .ok (a', rest)) : P a' := by
  suffices hsteps : ∀ {steps : List Char} {first : Bool} {a : α} {cs : List Char}, P a →
      membersFrom member steps first a cs = .ok (a', rest) → P a' from hsteps ha h
  clear ha h
  intro steps
  induction steps with
  | nil =>
    intro first a cs _ h
    cases h
  | cons _ steps ih =>
    intro first a cs ha h
    obtain ⟨⟨key?, left⟩, -, hread⟩ := bind_eq_ok_iff.1 h
    cases key? with
    | none =>
      cases hread
      exact ha
    | some key =>
      obtain ⟨⟨a₁, middle⟩, ha₁, hread⟩ := bind_eq_ok_iff.1 hread
      exact ih (hmember ha ha₁) hread

/-- **A value that is read is within its room.** -/
theorem within_of_readValue {room : ℕ} {v : Value} (h : readValue room cs = .ok (v, rest)) :
    v.Within room := by
  induction room generalizing cs v rest with
  | zero =>
    obtain ⟨w, hw, rfl⟩ | ⟨inner, -, hinner⟩ | ⟨inner, -, hinner⟩ := readBy_cases h
    · exact within_of_readScalar? 0 hw
    · cases hinner
    · cases hinner
  | succ room ih =>
    obtain ⟨w, hw, rfl⟩ | ⟨inner, -, hinner⟩ | ⟨inner, -, hinner⟩ := readBy_cases h
    · exact within_of_readScalar? _ hw
    · obtain ⟨⟨vs, left⟩, hvs, hinner⟩ := bind_eq_ok_iff.1 hinner
      cases hinner
      exact .array (forall_of_elementsFrom (P := Value.Within room) ih hvs)
    · obtain ⟨⟨ms, left⟩, hms, hinner⟩ := bind_eq_ok_iff.1 hinner
      cases hinner
      have hall : ∀ m ∈ ms, m.2.Within room := by
        refine holds_of_readMembers (P := fun ms => ∀ m ∈ ms, Value.Within room m.2) ?_ (by simp) hms
        intro key before cs after rest hbefore h
        obtain ⟨value, -, h⟩ := bind_eq_ok_iff.1 h
        obtain ⟨⟨w, left⟩, hw, h⟩ := bind_eq_ok_iff.1 h
        cases h
        exact List.forall_mem_cons.2 ⟨ih hw, hbefore⟩
      exact .object fun m hm => hall m (List.mem_reverse.1 hm)

end Containers

end Json

end Shader
