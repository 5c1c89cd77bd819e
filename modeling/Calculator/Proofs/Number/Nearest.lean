import Mathlib
import Calculator.Magnitude.Shortest

/-!
# Rounding to doubles

The nearest double of a quotient depends on the value of the quotient alone, and that of the value of
a double is this double. So the shortest decimal of a double is read as the double.
-/

set_option autoImplicit false

namespace Calculator

theorem roundDiv_scale (tie : Tie) (num den : Nat) {factor : Nat} (positive : 0 < factor) :
    roundDiv tie (num * factor) (den * factor) = roundDiv tie num den := by
  have twice : 2 * (num * factor % (den * factor)) = 2 * (num % den) * factor := by
    rw [Nat.mul_mod_mul_right, Nat.mul_assoc]
  simp only [roundDiv, twice, Nat.mul_div_mul_right _ _ positive,
    Nat.mul_lt_mul_right positive]

theorem roundDiv_mul (tie : Tie) (quotient : Nat) {den : Nat} (positive : 0 < den) :
    roundDiv tie (quotient * den) den = quotient := by
  simp [roundDiv, Nat.mul_div_cancel _ positive, positive]

namespace Magnitude

theorem nearest_scale (num den : Nat) {factor : Nat} (positive : 0 < factor) :
    nearest (num * factor) (den * factor) = nearest num den := by
  have scaled : (num * factor) <<< 1074 = num <<< 1074 * factor := by
    simp only [Nat.shiftLeft_eq, Nat.mul_right_comm]
  have divisor (dropped : Nat) : (den * factor) <<< dropped = den <<< dropped * factor := by
    simp only [Nat.shiftLeft_eq, Nat.mul_right_comm]
  simp only [nearest, scaled, divisor, Nat.mul_div_mul_right _ _ positive,
    roundDiv_scale _ _ _ positive]

theorem nearest_congr {num den num' den' : Nat} (positive : 0 < den) (positive' : 0 < den')
    (same : num * den' = num' * den) : nearest num den = nearest num' den' := by
  rw [← nearest_scale num den positive', ← nearest_scale num' den' positive, same,
    Nat.mul_comm den den']

/-! ## The value of a magnitude -/

theorem scale_eq (m : Magnitude) : m.scale = m.bits / 2 ^ 52 - 1 := by
  rw [scale, Nat.shiftRight_eq_div_pow]

theorem significand_eq (m : Magnitude) : m.significand = m.bits - m.scale * 2 ^ 52 := by
  unfold significand
  rw [Nat.shiftLeft_eq]

/-- Significands have up to 53 bits, and fewer only in units of the least double. -/
theorem significand_bounds (m : Magnitude) :
    m.significand < 2 ^ 53 ∧ (0 < m.scale → 2 ^ 52 ≤ m.significand) := by
  have scale := m.scale_eq
  have significand := m.significand_eq
  omega

theorem scale_add_significand (m : Magnitude) : m.scale <<< 52 + m.significand = m.bits := by
  have scale := m.scale_eq
  rw [significand_eq, Nat.shiftLeft_eq]
  omega

theorem log2_units (m : Magnitude) : m.units.log2 - 52 = m.scale := by
  obtain ⟨upper, lower⟩ := m.significand_bounds
  rw [units, Nat.shiftLeft_eq]
  by_cases empty : m.significand = 0
  · have unscaled : m.scale = 0 := by omega
    simp [empty, unscaled]
  · have filled : m.significand * 2 ^ m.scale ≠ 0 :=
      Nat.mul_ne_zero empty (Nat.ne_of_gt (Nat.two_pow_pos _))
    have below : m.significand * 2 ^ m.scale < 2 ^ (53 + m.scale) := by
      rw [Nat.pow_add]
      exact Nat.mul_lt_mul_of_pos_right upper (Nat.two_pow_pos _)
    have small := (Nat.log2_lt filled).mpr below
    -- Only unscaled significands may have fewer than 53 bits, and these lose none.
    by_cases unscaled : m.scale = 0
    · omega
    · have above : 2 ^ (52 + m.scale) ≤ m.significand * 2 ^ m.scale := by
        rw [Nat.pow_add]
        exact Nat.mul_le_mul_right _ (lower (Nat.pos_of_ne_zero unscaled))
      have large := (Nat.le_log2 filled).mpr above
      omega

theorem nearest_units (m : Magnitude) {num den : Nat} (positive : 0 < den)
    (same : num <<< 1074 = m.units * den) : nearest num den = m := by
  have scaled : m.units * den = m.significand * (den <<< m.scale) := by
    simp only [units, Nat.shiftLeft_eq, Nat.mul_assoc, Nat.mul_comm]
  have divisor : 0 < den <<< m.scale := by
    rw [Nat.shiftLeft_eq]
    exact Nat.mul_pos positive (Nat.two_pow_pos _)
  simp only [nearest, same, Nat.mul_div_cancel _ positive, m.log2_units]
  simp only [scaled, roundDiv_mul _ _ divisor, m.scale_add_significand,
    Nat.min_eq_left m.bits_le]

end Magnitude

/-! ## Decimals -/

theorem Decimal.denominator_pos (d : Decimal) : 0 < d.denominator :=
  Nat.pow_pos (by decide)

theorem Decimal.nearest_congr {d d' : Decimal}
    (same : d.numerator * d'.denominator = d'.numerator * d.denominator) : d.nearest = d'.nearest :=
  Magnitude.nearest_congr d.denominator_pos d'.denominator_pos same

theorem Decimal.nearest_shift (coefficient zeros : Nat) (exponent : Int) :
    Decimal.nearest ⟨coefficient * 10 ^ zeros, exponent⟩ =
      Decimal.nearest ⟨coefficient, exponent + zeros⟩ := by
  apply Decimal.nearest_congr
  have powers : zeros + exponent.toNat + (-(exponent + zeros)).toNat =
      (exponent + zeros).toNat + (-exponent).toNat := by omega
  have same := congrArg (coefficient * 10 ^ ·) powers
  simpa only [numerator, denominator, Nat.pow_eq, Nat.pow_add, ← Nat.mul_assoc] using same

theorem Decimal.nearest_trim (d : Decimal) : d.trim.nearest = d.nearest := by
  fun_induction trim d with
  | case1 d zero =>
      apply Decimal.nearest_congr
      simp [numerator, zero]
  | case2 d _ multiple ih =>
      have coefficient : d.coefficient / 10 * 10 ^ 1 = d.coefficient := by omega
      rw [ih, ← Int.natCast_one, ← nearest_shift, coefficient]
  | case3 => rfl

namespace Magnitude

/-- As many halves as `least` exceeds `scale` by are as many tenths, each five times. -/
theorem halves_eq_tenths (significand scale least : Nat) :
    significand * 2 ^ (scale - least) * 5 ^ (least - scale) * 2 ^ least =
      significand * 2 ^ scale * 10 ^ (least - scale) := by
  have powers : scale - least + least = scale + (least - scale) := by omega
  have halves : 2 ^ (scale - least) * 2 ^ least = 2 ^ scale * 2 ^ (least - scale) := by
    rw [← Nat.pow_add, powers, Nat.pow_add]
  have tenths : 10 ^ (least - scale) = 2 ^ (least - scale) * 5 ^ (least - scale) := by
    rw [← Nat.mul_pow]
  rw [tenths, Nat.mul_right_comm, Nat.mul_assoc significand, halves]
  simp only [Nat.mul_assoc]

theorem nearest_exact (m : Magnitude) : m.exact.nearest = m := by
  apply m.nearest_units m.exact.denominator_pos
  simp only [Decimal.numerator, Decimal.denominator, exact, units, Nat.shiftLeft_eq, Nat.pow_eq,
    Int.neg_neg, Int.toNat_natCast, Int.toNat_neg_natCast, Nat.pow_zero, Nat.mul_one]
  generalize 1074 = least
  exact halves_eq_tenths _ _ _

theorem nearest_shortest (tie : Tie) (m : Magnitude) : (m.shortest tie).nearest = m := by
  rw [shortest, Decimal.nearest_trim]
  cases found : (List.range 17).findSome? fun more =>
      (m.exact.neighbours tie (m.exact.digits.length - (more + 1))).find? fun d =>
        decide (d.nearest = m) with
  | none => exact m.nearest_exact
  | some d =>
      obtain ⟨more, _, tried⟩ := List.exists_of_findSome?_eq_some found
      simpa using List.find?_some tried

end Magnitude

end Calculator
