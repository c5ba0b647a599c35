/-!
# Rounded quotients

* `roundHalfEven`: the natural number nearest to a quotient, an exact half going to the even
  neighbour; **`roundHalfEven_near`** says that it is at most half a unit away;
* `ceilDiv`: the least natural number that is not below a quotient;
* `tenPow`: the powers of ten.
-/

namespace Shader

/-- The natural number nearest to `num / den`, an exact half going to the even neighbour. -/
def roundHalfEven (num den : Nat) : Nat :=
  let q := num / den
  let twice := 2 * (num % den)
  if twice < den then q
  else if den < twice then q + 1
  else if q % 2 = 0 then q else q + 1

/-- The least natural number that is not below `num / den`. -/
def ceilDiv (num den : Nat) : Nat := (num + den - 1) / den

/-- The power of ten with the given exponent. -/
def tenPow (n : Nat) : Nat := Nat.pow 10 n

/-- **A rounded quotient is at most half a unit away.** -/
theorem roundHalfEven_near (num : Nat) {den : Nat} (h : 0 < den) :
    2 * num ≤ 2 * (den * roundHalfEven num den) + den ∧
      2 * (den * roundHalfEven num den) ≤ 2 * num + den := by
  have hd := Nat.div_add_mod num den
  have hm := Nat.mod_lt num h
  simp only [roundHalfEven]
  generalize num / den = q at *
  generalize num % den = r at *
  have hs : den * (q + 1) = den * q + den := by rw [Nat.mul_succ]
  split
  · omega
  · split
    · rw [hs]; omega
    · split
      · omega
      · rw [hs]; omega

end Shader
