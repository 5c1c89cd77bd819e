import Mathlib
import Calculator.Proofs.Number.Sign

/-!
# Values of doubles

The rational number that a double denotes, read off the fields of its pattern. A finite double denotes
its magnitude, in units of the least positive double, with its sign.
-/

set_option autoImplicit false

namespace Calculator

open Float.Model UnpackedFloat

/-- The number that a finite double denotes. -/
def rational (v : Float) : ℚ :=
  match v.toModel.unpack with
  | .finite sign significand exponent _ => sign.apply significand * 2 ^ exponent
  | _ => 0

/-- The integer that a finite double scales by a power of two. -/
def significand (v : Float) : Nat :=
  match v.toModel.unpack with
  | .finite _ significand _ _ => significand
  | _ => 0

section Fields

variable (v : Float)

theorem toNat_unpackExponent :
    (@unpackExponent .binary64 v.toBits.toBitVec).toNat = v.toBits.toNat / 2 ^ 52 % 2 ^ 11 := by
  rw [unpackExponent_def, BitVec.extractLsb'_toNat, Nat.shiftRight_eq_div_pow]
  rfl

theorem toNat_unpackMantissa :
    (@unpackMantissa .binary64 v.toBits.toBitVec).toNat = v.toBits.toNat % 2 ^ 52 := by
  rw [unpackMantissa_def, BitVec.extractLsb'_toNat]
  rfl

theorem unpackExponent_eq_zero_iff :
    @unpackExponent .binary64 v.toBits.toBitVec = 0#11 ↔ v.toBits.toNat / 2 ^ 52 % 2 ^ 11 = 0 := by
  rw [← BitVec.toNat_inj, toNat_unpackExponent]
  rfl

theorem unpackMantissa_eq_zero_iff :
    @unpackMantissa .binary64 v.toBits.toBitVec = 0#52 ↔ v.toBits.toNat % 2 ^ 52 = 0 := by
  rw [← BitVec.toNat_inj, toNat_unpackMantissa]
  rfl

end Fields

theorem isFinite_iff {v : Float} :
    v.isFinite = true ↔ v.toBits.toNat % signBit < infinityBits := by
  refine ⟨toBits_lt_of_isFinite, fun below => ?_⟩
  have exponent : @unpackExponent .binary64 v.toBits.toBitVec ≠ -1#11 := by
    rw [Ne, ← BitVec.toNat_inj, toNat_unpackExponent]
    simp only [signBit, infinityBits] at below
    simp
    omega
  change (@UnpackedFloat.unpack .binary64 v.toBits.toBitVec).isFinite = true
  simp only [UnpackedFloat.unpack, if_neg exponent]
  split_ifs <;> rfl

/-! ## Finite doubles -/

section Finite

variable {v : Float} (finite : v.isFinite = true)

include finite

/-- The fields of a finite double are the parts of its magnitude. -/
theorem unpack_of_isFinite :
    v.toModel.unpack =
      if filled : 0 < (Magnitude.ofFloat v).significand then
        .finite (if isNegative v then .negative else .positive) (Magnitude.ofFloat v).significand
          ((Magnitude.ofFloat v).scale - 1074) filled
      else .zero (if isNegative v then .negative else .positive) := by
  have scale := (Magnitude.ofFloat v).scale_eq
  have whole := (Magnitude.ofFloat v).significand_eq
  simp only [bits_ofFloat finite, signBit] at scale whole
  have sign : Sign.ofBitVec (@unpackSign .binary64 v.toBits.toBitVec) =
      if isNegative v then .negative else .positive := by
    simpa [isNegative] using ofBitVec_unpackSign v.toBits.toBitVec
  have exponent := toNat_unpackExponent v
  have fraction := toNat_unpackMantissa v
  change @UnpackedFloat.unpack .binary64 v.toBits.toBitVec = _
  simp only [UnpackedFloat.unpack, if_neg (unpackExponent_of_isFinite finite), sign]
  by_cases subnormal : @unpackExponent .binary64 v.toBits.toBitVec = 0#11
  · have empty := (unpackExponent_eq_zero_iff v).mp subnormal
    have same : (Magnitude.ofFloat v).significand = v.toBits.toNat % 2 ^ 52 := by omega
    have unscaled : (Magnitude.ofFloat v).scale = 0 := by omega
    by_cases zero : @unpackMantissa .binary64 v.toBits.toBitVec = 0#52
    · have blank := (unpackMantissa_eq_zero_iff v).mp zero
      have unfilled : ¬ 0 < (Magnitude.ofFloat v).significand := by omega
      rw [if_pos subnormal, dif_pos zero, dif_neg unfilled]
    · have filled : 0 < (Magnitude.ofFloat v).significand := by
        have := mt (unpackMantissa_eq_zero_iff v).mpr zero
        omega
      rw [if_pos subnormal, dif_neg zero, dif_pos filled]
      simp only [UnpackedFloat.finite.injEq, true_and, exponent, empty, unscaled, fraction, same]
      rfl
  · have normal := mt (unpackExponent_eq_zero_iff v).mpr subnormal
    have filled : 0 < (Magnitude.ofFloat v).significand := by omega
    rw [if_neg subnormal, dif_pos filled]
    have leading : ((1#1 ++ @unpackMantissa .binary64 v.toBits.toBitVec : BitVec 53)).toNat =
        2 ^ 52 + v.toBits.toNat % 2 ^ 52 := by
      rw [BitVec.toNat_append, fraction, ← Nat.shiftLeft_add_eq_or_of_lt (Nat.mod_lt _ (by decide))]
      rfl
    have bias : Format.binary64.exponentBias = 1023 := rfl
    simp only [UnpackedFloat.finite.injEq, true_and]
    refine ⟨leading.trans ?_, ?_⟩ <;> omega

theorem rational_eq :
    rational v = (if isNegative v then -1 else 1) * ((Magnitude.ofFloat v).units / 2 ^ 1074) := by
  rw [rational, unpack_of_isFinite finite, Magnitude.units, Nat.shiftLeft_eq]
  by_cases filled : 0 < (Magnitude.ofFloat v).significand
  · have power : (2 : ℚ) ^ ((Magnitude.ofFloat v).scale - 1074 : ℤ) =
        2 ^ (Magnitude.ofFloat v).scale / 2 ^ 1074 := by
      rw [zpow_sub₀ two_ne_zero, zpow_natCast, zpow_ofNat]
    simp only [dif_pos filled, power]
    cases isNegative v
    · simp only [Bool.false_eq_true, if_false, Sign.apply, Int.cast_natCast, Nat.cast_mul, Nat.cast_pow,
        Nat.cast_ofNat, one_mul, mul_div_assoc]
    · simp only [if_true, Sign.apply, Int.cast_neg, Int.cast_natCast, Nat.cast_mul, Nat.cast_pow,
        Nat.cast_ofNat, mul_div_assoc, neg_mul, one_mul]
  · have empty : (Magnitude.ofFloat v).significand = 0 := by omega
    simp [empty]

theorem significand_eq : significand v = (Magnitude.ofFloat v).significand := by
  rw [significand, unpack_of_isFinite finite]
  by_cases filled : 0 < (Magnitude.ofFloat v).significand
  · rw [dif_pos filled]
  · have empty : (Magnitude.ofFloat v).significand = 0 := by omega
    simp [empty]

end Finite

/-! ## Doubles of magnitudes -/

namespace Magnitude

variable {m : Magnitude} (below : m.bits < infinityBits)

include below

theorem isFinite_toFloat : m.toFloat.isFinite = true := by
  rwa [isFinite_iff, toBits_toFloat below, bits_mod below]

theorem ofFloat_toFloat : ofFloat m.toFloat = m := by
  have bits := bits_ofFloat (isFinite_toFloat below)
  rw [toBits_toFloat below, bits_mod below] at bits
  cases m
  simpa [ofFloat] using bits

theorem rational_toFloat : rational m.toFloat = m.units / 2 ^ 1074 := by
  rw [rational_eq (isFinite_toFloat below), isNegative_toFloat below, ofFloat_toFloat below,
    if_neg Bool.false_ne_true, one_mul]

theorem significand_toFloat : Calculator.significand m.toFloat = m.significand := by
  rw [Calculator.significand_eq (isFinite_toFloat below), ofFloat_toFloat below]

end Magnitude

theorem Magnitude.isInf_toFloat {m : Magnitude} (infinite : m.bits = infinityBits) :
    m.toFloat.isInf = true ∧ m.toFloat.isNaN = false ∧ isNegative m.toFloat = false := by
  rw [toFloat, infinite]
  decide +kernel

theorem Magnitude.isNaN_toFloat (m : Magnitude) : m.toFloat.isNaN = false := by
  rcases Nat.lt_or_eq_of_le m.bits_le with below | infinite
  · exact isNaN_of_isFinite (isFinite_toFloat below)
  · exact (isInf_toFloat infinite).2.1

end Calculator
