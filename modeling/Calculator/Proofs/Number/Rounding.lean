import Mathlib
import Calculator.Proofs.Number.Nearest
import Calculator.Proofs.Number.Value

/-!
# Correct rounding

What it means to round a rational number to a double, and that the nearest double of a quotient is its
rounding. Everything follows from where the quotient is cut: `Cut` says that in units of the cut the
kept integer is at most one half off, even if it is exactly one half off, and that no cut takes a bit
of a double of that size.
-/

set_option autoImplicit false

namespace Calculator

/-- Numbers from this one up are rounded to infinity. It lies halfway between the greatest double and
the number that would be next. -/
def overflowThreshold : ℚ := 2 ^ 1024 - 2 ^ 970

/-- `Rounds q v`: the number `q`, which is not negative, is rounded to the double `v`. -/
structure Rounds (q : ℚ) (v : Float) : Prop where
  notNaN : v.isNaN = false
  clear : isNegative v = false
  overflow : overflowThreshold ≤ q → v.isInf = true
  finite : q < overflowThreshold → v.isFinite = true
  nearest : v.isFinite = true → ∀ w : Float, w.isFinite = true →
    |rational v - q| ≤ |rational w - q|
  even : v.isFinite = true → ∀ w : Float, w.isFinite = true → rational w ≠ rational v →
    |rational v - q| = |rational w - q| → significand v % 2 = 0
  underflow : q ≤ 1 / 2 ^ 1075 → v = 0

/-! ## Where a quotient is cut -/

theorem roundDiv_cases (num den : Nat) :
    roundDiv .even num den = num / den ∧ 2 * (num % den) ≤ den ∨
      roundDiv .even num den = num / den + 1 ∧ den ≤ 2 * (num % den) := by
  unfold roundDiv
  simp only
  split_ifs <;> omega

theorem roundDiv_even {num den : Nat} (half : 2 * (num % den) = den) :
    roundDiv .even num den % 2 = 0 := by
  unfold roundDiv
  simp only [half, lt_irrefl, if_false]
  split_ifs <;> omega

/-- The rounded quotient is at most one half off, and even where it is one half off. -/
theorem abs_roundDiv_sub (num : Nat) {den : Nat} (positive : 0 < den) :
    |(roundDiv .even num den : ℚ) - num / den| ≤ 1 / 2 ∧
      (|(roundDiv .even num den : ℚ) - num / den| = 1 / 2 → roundDiv .even num den % 2 = 0) := by
  have unit : (0 : ℚ) < den := Nat.cast_pos.mpr positive
  have quotient : (num : ℚ) / den = (num / den : Nat) + (num % den : Nat) / den := by
    rw [div_eq_iff unit.ne', add_mul, div_mul_cancel₀ _ unit.ne']
    exact_mod_cast (Nat.div_add_mod' num den).symm
  have remainder : (0 : ℚ) ≤ (num % den : Nat) / den := by positivity
  have smaller : ((num % den : Nat) : ℚ) / den < 1 := by
    rw [div_lt_one unit]
    exact_mod_cast Nat.mod_lt num positive
  have below : ((num % den : Nat) : ℚ) / den ≤ 1 / 2 ↔ 2 * (num % den) ≤ den := by
    rw [div_le_div_iff₀ unit two_pos, one_mul, mul_comm]
    exact_mod_cast Iff.rfl
  have above : 1 / 2 ≤ ((num % den : Nat) : ℚ) / den ↔ den ≤ 2 * (num % den) := by
    rw [div_le_div_iff₀ two_pos unit, one_mul, mul_comm _ (2 : ℚ)]
    exact_mod_cast Iff.rfl
  rcases roundDiv_cases num den with ⟨down, close⟩ | ⟨up, close⟩
  · have distance : |(roundDiv .even num den : ℚ) - num / den| = (num % den : Nat) / den := by
      rw [down, quotient, sub_add_cancel_left, abs_neg, abs_of_nonneg remainder]
    rw [distance]
    refine ⟨below.mpr close, fun half => roundDiv_even ?_⟩
    exact Nat.le_antisymm close (above.mp half.ge)
  · have distance : |(roundDiv .even num den : ℚ) - num / den| = 1 - (num % den : Nat) / den := by
      rw [up, quotient, Nat.cast_succ, add_sub_add_left_eq_sub, abs_of_pos (sub_pos.mpr smaller)]
    rw [distance]
    have far := above.mpr close
    refine ⟨by linarith, fun half => roundDiv_even ?_⟩
    exact Nat.le_antisymm (below.mp (by linarith)) close

/-- `Cut u k r`: in units of `2 ^ k` the number `u` is rounded to the integer `r` of 53 bits, or of
fewer where the units are the least. -/
structure Cut (u : ℚ) (k r : Nat) : Prop where
  close : |(r : ℚ) - u / 2 ^ k| ≤ 1 / 2
  even : |(r : ℚ) - u / 2 ^ k| = 1 / 2 → r % 2 = 0
  upper : u / 2 ^ k < 2 ^ 53
  lower : 0 < k → 2 ^ 52 ≤ u / 2 ^ k

theorem Magnitude.nearest_cut (num : Nat) {den : Nat} (positive : 0 < den) :
    ∃ k r, Cut (num * 2 ^ 1074 / den) k r ∧
      (nearest num den).bits = min (k * 2 ^ 52 + r) infinityBits := by
  generalize scaled : num <<< 1074 = total
  have units : (num : ℚ) * 2 ^ 1074 = total := by
    simp only [← scaled, Nat.shiftLeft_eq, Nat.cast_mul, Nat.cast_pow, Nat.cast_ofNat]
  rw [units]
  let k := (total / den).log2 - 52
  have cut : (total : ℚ) / (den * 2 ^ k : Nat) = total / den / 2 ^ k := by
    push_cast
    rw [div_div]
  refine ⟨k, roundDiv .even total (den <<< k), ?_, ?_⟩
  · rw [Nat.shiftLeft_eq]
    obtain ⟨close, even⟩ := abs_roundDiv_sub total (Nat.mul_pos positive (Nat.two_pow_pos k))
    rw [cut] at close even
    have unit : (0 : ℚ) < den := Nat.cast_pos.mpr positive
    refine ⟨close, even, ?_, fun scale => ?_⟩
    · have below : total / den < 2 ^ (53 + k) :=
        Nat.lt_of_lt_of_le Nat.lt_log2_self (Nat.pow_le_pow_right two_pos (by omega))
      have upper := (Nat.div_lt_iff_lt_mul positive).mp below
      rw [div_lt_iff₀ (by positivity), ← pow_add, div_lt_iff₀ unit]
      exact_mod_cast upper
    · have filled : total / den ≠ 0 := by
        intro empty
        simp [k, empty] at scale
      have exponent : (total / den).log2 = 52 + k := by omega
      have above := Nat.log2_self_le filled
      rw [exponent] at above
      have lower := (Nat.le_div_iff_mul_le positive).mp above
      rw [le_div_iff₀ (by positivity), ← pow_add, le_div_iff₀ unit]
      exact_mod_cast lower
  · simp only [nearest, scaled, Nat.shiftLeft_eq]
    rfl

theorem abs_mul_sub (x u : ℚ) {unit : ℚ} (positive : 0 < unit) :
    |x * unit - u| = |x - u / unit| * unit := by
  rw [← abs_of_pos positive, ← abs_mul, abs_of_pos positive, sub_mul,
    div_mul_cancel₀ _ positive.ne']

namespace Cut

variable {u : ℚ} {k r : Nat} (cut : Cut u k r)

include cut

theorem bounds : r ≤ 2 ^ 53 ∧ (0 < k → 2 ^ 52 ≤ r) := by
  obtain ⟨low, high⟩ := abs_le.mp cut.close
  constructor
  · have upper := cut.upper
    by_contra! above
    have above : ((2 ^ 53 + 1 : Nat) : ℚ) ≤ r := by exact_mod_cast above
    push_cast at above
    linarith
  · intro scaled
    have lower := cut.lower scaled
    by_contra! below
    have below : (r : ℚ) ≤ (2 ^ 52 - 1 : Nat) := by
      exact_mod_cast Nat.le_sub_one_of_lt below
    push_cast at below
    linarith

/-- No integer is nearer, and one that is as near leaves `r` even. -/
theorem nearest (s : ℤ) :
    |(r : ℚ) - u / 2 ^ k| ≤ |(s : ℚ) - u / 2 ^ k| ∧
      (s ≠ r → |(r : ℚ) - u / 2 ^ k| = |(s : ℚ) - u / 2 ^ k| → r % 2 = 0) := by
  by_cases same : s = r
  · subst same
    simp
  · have apart : (1 : ℚ) ≤ |(s : ℚ) - r| := by
      exact_mod_cast Int.one_le_abs (sub_ne_zero.mpr same)
    have triangle : |(s : ℚ) - r| ≤ |(s : ℚ) - u / 2 ^ k| + |(r : ℚ) - u / 2 ^ k| := by
      rw [abs_sub_comm (r : ℚ)]
      exact abs_sub_le _ _ _
    have close := cut.close
    refine ⟨by linarith, fun _ equal => cut.even ?_⟩
    linarith

/-- No magnitude is nearer. Those in the same or greater units are integers of the cut's units, and
those in lesser units are beyond the least integer of 53 bits. -/
theorem nearest_magnitude (m : Magnitude) :
    |(r : ℚ) * 2 ^ k - u| ≤ |(m.units : ℚ) - u| ∧
      ((m.units : ℚ) ≠ r * 2 ^ k → |(r : ℚ) * 2 ^ k - u| = |(m.units : ℚ) - u| → r % 2 = 0) := by
  have unit : (0 : ℚ) < 2 ^ k := by positivity
  have units : (m.units : ℚ) = m.units / 2 ^ k * 2 ^ k := (div_mul_cancel₀ _ unit.ne').symm
  rw [units, abs_mul_sub _ _ unit, abs_mul_sub _ _ unit, mul_le_mul_iff_left₀ unit,
    mul_left_inj' unit.ne', ne_eq, mul_left_inj' unit.ne']
  by_cases coarser : k ≤ m.scale
  · have integral : (m.units : ℚ) / 2 ^ k = ((m.significand * 2 ^ (m.scale - k) : Nat) : ℤ) := by
      rw [div_eq_iff unit.ne', Magnitude.units, Nat.shiftLeft_eq]
      push_cast
      rw [mul_assoc, ← pow_add, Nat.sub_add_cancel coarser]
    rw [integral]
    have nearest := cut.nearest (m.significand * 2 ^ (m.scale - k) : Nat)
    exact ⟨nearest.1, fun other => nearest.2 fun same => other (by exact_mod_cast same)⟩
  · have small : (m.units : ℚ) / 2 ^ k < 2 ^ 52 := by
      have shifted : 2 ^ (m.scale + 1) ≤ 2 ^ k := Nat.pow_le_pow_right two_pos (by omega)
      have below := Nat.mul_lt_mul_of_pos_right m.significand_bounds.1 (Nat.two_pow_pos m.scale)
      have natural : m.units < 2 ^ 52 * 2 ^ k := by
        rw [Magnitude.units, Nat.shiftLeft_eq]
        omega
      rw [div_lt_iff₀ unit]
      exact_mod_cast natural
    have lower := cut.lower (by omega)
    have nearest := (cut.nearest (2 ^ 52)).1
    rw [Int.cast_pow, Int.cast_ofNat, abs_sub_comm (2 ^ 52 : ℚ),
      abs_of_nonneg (sub_nonneg.mpr lower)] at nearest
    have farther : |(r : ℚ) - u / 2 ^ k| < |(m.units : ℚ) / 2 ^ k - u / 2 ^ k| := by
      rw [abs_sub_comm ((m.units : ℚ) / 2 ^ k)]
      exact lt_of_lt_of_le (by linarith) (le_abs_self _)
    exact ⟨farther.le, fun _ equal => absurd equal farther.ne⟩

theorem units_of_bits {m : Magnitude} (bits : m.bits = k * 2 ^ 52 + r) : m.units = r * 2 ^ k := by
  have scale := m.scale_eq
  have significand := m.significand_eq
  have bounds := cut.bounds
  rw [Magnitude.units, Nat.shiftLeft_eq]
  -- A carry out of the significand goes on to the exponent field.
  by_cases carry : r = 2 ^ 53
  · have next : m.scale = k + 1 := by omega
    have half : m.significand = 2 ^ 52 := by omega
    rw [next, half, carry, Nat.pow_succ]
    ring
  · have same : m.scale = k := by omega
    have whole : m.significand = r := by omega
    rw [same, whole]

theorem close_of_odd (odd : r % 2 = 1) : |(r : ℚ) - u / 2 ^ k| < 1 / 2 := by
  refine lt_of_le_of_ne cut.close fun half => ?_
  have even := cut.even half
  omega

theorem lt_of_odd {n : Nat} (odd : n % 2 = 1) (above : n + 1 / 2 ≤ u / 2 ^ k) : n < r := by
  by_contra! upper
  have low := (abs_le.mp cut.close).1
  have lower : (n : ℚ) ≤ r := by linarith
  obtain rfl : r = n := le_antisymm upper (Nat.cast_le.mp lower)
  have strict := (abs_lt.mp (cut.close_of_odd odd)).1
  linarith

theorem gt_of_odd {n : Nat} (odd : n % 2 = 1) (below : u / 2 ^ k ≤ n - 1 / 2) : r < n := by
  by_contra! lower
  have high := (abs_le.mp cut.close).2
  have upper : (r : ℚ) ≤ n := by linarith
  obtain rfl : r = n := le_antisymm (Nat.cast_le.mp upper) lower
  have strict := (abs_lt.mp (cut.close_of_odd odd)).2
  linarith

theorem le_of_carry {e : Nat} (carry : e + 2 ≤ k ∨ k = e + 1 ∧ r = 2 ^ 53) :
    (2 ^ 54 - 1) * 2 ^ e ≤ u := by
  have positive : (0 : ℚ) < 2 ^ e := by positivity
  have unit : (0 : ℚ) < 2 ^ k := by positivity
  rcases carry with beyond | ⟨rfl, greatest⟩
  · have lower := cut.lower (by omega)
    have power : (2 : ℚ) ^ (e + 2) ≤ 2 ^ k := pow_le_pow_right₀ one_le_two beyond
    rw [le_div_iff₀ unit] at lower
    rw [pow_add] at power
    linarith
  · obtain ⟨low, high⟩ := abs_le.mp cut.close
    rw [greatest, Nat.cast_pow, Nat.cast_ofNat] at high
    have above : 2 ^ 53 - 1 / 2 ≤ u / 2 ^ (e + 1) := by linarith
    have next : (2 : ℚ) ^ (e + 1) = 2 * 2 ^ e := pow_succ' _ _
    rw [le_div_iff₀ unit, next] at above
    linarith

theorem carry_of_le {e : Nat} (le : (2 ^ 54 - 1) * 2 ^ e ≤ u) :
    e + 2 ≤ k ∨ k = e + 1 ∧ r = 2 ^ 53 := by
  have unit : (0 : ℚ) < 2 ^ k := by positivity
  have upper := cut.upper
  rw [div_lt_iff₀ unit] at upper
  have least : e < k := by
    by_contra! below
    have power : (2 : ℚ) ^ k ≤ 2 ^ e := pow_le_pow_right₀ one_le_two below
    linarith
  by_cases beyond : e + 2 ≤ k
  · exact .inl beyond
  · obtain rfl : k = e + 1 := by omega
    -- The greatest significand is odd, so the number halfway above it is not rounded to it.
    have above : ((2 ^ 53 - 1 : Nat) : ℚ) + 1 / 2 ≤ u / 2 ^ (e + 1) := by
      have next : (2 : ℚ) ^ (e + 1) = 2 * 2 ^ e := pow_succ' _ _
      rw [le_div_iff₀ unit, next]
      push_cast
      linarith
    have greatest := cut.lt_of_odd (by decide) above
    have bounds := cut.bounds.1
    exact .inr ⟨rfl, by omega⟩

theorem overflow_iff : infinityBits ≤ k * 2 ^ 52 + r ↔ (2 ^ 54 - 1) * 2 ^ 2044 ≤ u := by
  have bounds := cut.bounds
  have patterns : infinityBits ≤ k * 2 ^ 52 + r ↔ 2044 + 2 ≤ k ∨ k = 2044 + 1 ∧ r = 2 ^ 53 := by
    simp only [infinityBits]
    omega
  rw [patterns]
  exact ⟨cut.le_of_carry, cut.carry_of_le⟩

theorem eq_zero (underflow : u ≤ 1 / 2) : k = 0 ∧ r = 0 := by
  have unscaled : k = 0 := by
    by_contra scaled
    have lower := cut.lower (Nat.pos_of_ne_zero scaled)
    have unit : (1 : ℚ) ≤ 2 ^ k := one_le_pow₀ one_le_two
    rw [le_div_iff₀ (by positivity)] at lower
    linarith
  have below : u / 2 ^ k ≤ (1 : Nat) - 1 / 2 := by
    rw [unscaled, pow_zero, div_one, Nat.cast_one]
    linarith
  exact ⟨unscaled, Nat.lt_one_iff.mp (cut.gt_of_odd (by decide) below)⟩

end Cut

/-! ## Rounding -/

theorem overflowThreshold_le_iff (q : ℚ) :
    overflowThreshold ≤ q ↔ (2 ^ 54 - 1) * 2 ^ 2044 ≤ q * 2 ^ 1074 := by
  have powers : (2 ^ 54 - 1) * (2 : ℚ) ^ 2044 = overflowThreshold * 2 ^ 1074 := by
    rw [overflowThreshold, sub_mul, sub_mul, ← pow_add, ← pow_add, ← pow_add, one_mul]
  have unit : (0 : ℚ) < 2 ^ 1074 := by positivity
  rw [powers, mul_le_mul_iff_left₀ unit]

theorem abs_rational {v : Float} (finite : v.isFinite = true) :
    |rational v| = (Magnitude.ofFloat v).units / 2 ^ 1074 := by
  have nonneg : (0 : ℚ) ≤ (Magnitude.ofFloat v).units / 2 ^ 1074 := by positivity
  rw [rational_eq finite, abs_mul, abs_of_nonneg nonneg]
  cases isNegative v <;> simp

theorem abs_div_sub (x q : ℚ) {unit : ℚ} (positive : 0 < unit) :
    |x / unit - q| = |x - q * unit| / unit := by
  have split : x / unit - q = (x - q * unit) / unit := by
    rw [sub_div, mul_div_cancel_right₀ _ positive.ne']
  rw [split, abs_div, abs_of_pos positive]

/-- A double is at least as far from a number that is not negative as its magnitude is. -/
theorem abs_units_sub_le {q : ℚ} (nonneg : 0 ≤ q) {v : Float} (finite : v.isFinite = true) :
    |((Magnitude.ofFloat v).units : ℚ) - q * 2 ^ 1074| / 2 ^ 1074 ≤ |rational v - q| := by
  have triangle := abs_abs_sub_abs_le (rational v) q
  rw [abs_of_nonneg nonneg, abs_rational finite] at triangle
  exact (abs_div_sub _ q (by positivity)).ge.trans triangle

namespace Cut

variable {q : ℚ} {k r : Nat} (cut : Cut (q * 2 ^ 1074) k r) (nonneg : 0 ≤ q) {m : Magnitude}
variable (bits : m.bits = k * 2 ^ 52 + r) (below : m.bits < infinityBits)

include cut bits below

theorem rational_toFloat : rational m.toFloat = r * 2 ^ k / 2 ^ 1074 := by
  rw [Magnitude.rational_toFloat below, cut.units_of_bits bits, Nat.cast_mul, Nat.cast_pow,
    Nat.cast_ofNat]

theorem abs_rational_sub :
    |rational m.toFloat - q| = |(r : ℚ) * 2 ^ k - q * 2 ^ 1074| / 2 ^ 1074 := by
  rw [cut.rational_toFloat bits below, abs_div_sub _ _ (by positivity)]

include nonneg

theorem nearest_double {w : Float} (finite : w.isFinite = true) :
    |rational m.toFloat - q| ≤ |rational w - q| := by
  have unit : (0 : ℚ) < 2 ^ 1074 := by positivity
  rw [cut.abs_rational_sub bits below]
  refine le_trans ?_ (abs_units_sub_le nonneg finite)
  exact (div_le_div_iff_of_pos_right unit).mpr (cut.nearest_magnitude (.ofFloat w)).1

theorem even_double {w : Float} (finite : w.isFinite = true)
    (other : rational w ≠ rational m.toFloat)
    (equal : |rational m.toFloat - q| = |rational w - q|) :
    Calculator.significand m.toFloat % 2 = 0 := by
  have unit : (0 : ℚ) < 2 ^ 1074 := by positivity
  have value := cut.rational_toFloat bits below
  have parity : m.significand % 2 = r % 2 := by
    have parts := m.scale_add_significand
    rw [Nat.shiftLeft_eq] at parts
    omega
  rw [Magnitude.significand_toFloat below, parity]
  by_cases same : ((Magnitude.ofFloat w).units : ℚ) = r * 2 ^ k
  · -- The other double is the opposite, and as near only to zero.
    have opposite : rational w = -rational m.toFloat := by
      have magnitude := abs_rational finite
      rw [same, ← value] at magnitude
      exact (eq_or_eq_neg_of_abs_eq magnitude).resolve_left other
    have product : 4 * (rational m.toFloat * q) = 0 := by
      rw [opposite, ← sq_eq_sq_iff_abs_eq_abs] at equal
      linarith
    rcases mul_eq_zero.mp ((mul_eq_zero.mp product).resolve_left four_ne_zero) with zero | zero
    · rw [opposite, zero, neg_zero] at other
      exact absurd rfl other
    · rw [(cut.eq_zero (by rw [zero, zero_mul]; positivity)).2]
  · have nearest := (cut.nearest_magnitude (.ofFloat w)).1
    have farther := abs_units_sub_le nonneg finite
    rw [← equal, cut.abs_rational_sub bits below, div_le_div_iff_of_pos_right unit] at farther
    exact (cut.nearest_magnitude (.ofFloat w)).2 same (le_antisymm nearest farther)

end Cut

theorem Cut.rounds {q : ℚ} {k r : Nat} (cut : Cut (q * 2 ^ 1074) k r) (nonneg : 0 ≤ q)
    {m : Magnitude} (bits : m.bits = min (k * 2 ^ 52 + r) infinityBits) : Rounds q m.toFloat := by
  have overflow := cut.overflow_iff
  rw [← overflowThreshold_le_iff] at overflow
  have vanishes : q ≤ 1 / 2 ^ 1075 → k = 0 ∧ r = 0 := by
    intro underflow
    apply cut.eq_zero
    rwa [le_div_iff₀ (by positivity), pow_succ, ← mul_assoc, ← le_div_iff₀ two_pos] at underflow
  by_cases below : k * 2 ^ 52 + r < infinityBits
  · have exact : m.bits = k * 2 ^ 52 + r := by omega
    have inRange : ¬ overflowThreshold ≤ q := fun above => absurd (overflow.mpr above) (by omega)
    rw [← exact] at below
    have finite := Magnitude.isFinite_toFloat below
    refine ⟨isNaN_of_isFinite finite, Magnitude.isNegative_toFloat below,
      fun above => absurd above inRange, fun _ => finite,
      fun _ _ => cut.nearest_double nonneg exact below,
      fun _ _ => cut.even_double nonneg exact below, fun underflow => ?_⟩
    obtain ⟨rfl, rfl⟩ := vanishes underflow
    rw [Magnitude.toFloat, exact]
    rfl
  · have above := overflow.mp (Nat.le_of_not_lt below)
    have greatest : m.bits = infinityBits := by omega
    obtain ⟨infinite, number, clear⟩ := Magnitude.isInf_toFloat greatest
    have unbounded : ¬ m.toFloat.isFinite = true := by
      intro finite
      rw [isInf_of_isFinite finite] at infinite
      cases infinite
    refine ⟨number, clear, fun _ => infinite, fun inRange => absurd above inRange.not_ge,
      fun finite => absurd finite unbounded, fun finite => absurd finite unbounded,
      fun underflow => ?_⟩
    obtain ⟨rfl, rfl⟩ := vanishes underflow
    exact absurd (by decide) below

theorem Magnitude.rounds_nearest (num : Nat) {den : Nat} (positive : 0 < den) :
    Rounds (num / den) (nearest num den).toFloat := by
  obtain ⟨k, r, cut, bits⟩ := nearest_cut num positive
  rw [mul_div_right_comm] at cut
  exact cut.rounds (by positivity) bits

/-- The double that a number is rounded to, if the number is not negative. -/
def nearestDouble (q : ℚ) : Float :=
  (Magnitude.nearest q.num.toNat q.den).toFloat

theorem num_toNat_div_den {q : ℚ} (nonneg : 0 ≤ q) : (q.num.toNat : ℚ) / q.den = q := by
  have numerator : ((q.num.toNat : ℤ) : ℚ) = q.num := by
    rw [Int.toNat_of_nonneg (Rat.num_nonneg.mpr nonneg)]
  rw [← Int.cast_natCast, numerator, Rat.num_div_den]

theorem rounds_nearestDouble {q : ℚ} (nonneg : 0 ≤ q) : Rounds q (nearestDouble q) := by
  have rounds := Magnitude.rounds_nearest q.num.toNat q.den_pos
  rwa [num_toNat_div_den nonneg] at rounds

theorem nearestDouble_div (num : Nat) {den : Nat} (positive : 0 < den) :
    nearestDouble (num / den) = (Magnitude.nearest num den).toFloat := by
  generalize value : (num / den : ℚ) = q
  have nonneg : 0 ≤ q := by
    rw [← value]
    positivity
  have same : q.num.toNat * den = num * q.den := by
    have quotient := (num_toNat_div_den nonneg).trans value.symm
    rw [div_eq_div_iff (Nat.cast_ne_zero.mpr q.den_ne_zero)
      (Nat.cast_ne_zero.mpr positive.ne')] at quotient
    exact_mod_cast quotient
  rw [nearestDouble, Magnitude.nearest_congr q.den_pos positive same]

end Calculator
