import Mathlib
import Calculator.Proofs.Number.PlainText

/-!
# Signs of doubles

Negation changes the sign bit of a double and no other. So every finite double is that of its magnitude
or the negation of it.
-/

set_option autoImplicit false

namespace Calculator

open Float.Model UnpackedFloat

theorem ofBitVec_unpackSign (bits : BitVec 64) :
    Sign.ofBitVec (@unpackSign .binary64 bits) =
      if signBit ≤ bits.toNat then .negative else .positive := by
  have field : @unpackSign .binary64 bits = 0#1 ↔ ¬ signBit ≤ bits.toNat := by
    have below := bits.isLt
    rw [unpackSign_def, ← BitVec.toNat_inj]
    simp only [BitVec.extractLsb'_toNat, Nat.shiftRight_eq_div_pow, signBit, BitVec.toNat_ofNat]
    omega
  by_cases negative : signBit ≤ bits.toNat <;> simp [Sign.ofBitVec, field, negative]

theorem unpack_neg {bits opposite : BitVec 64}
    (fields : bits.toNat % signBit = opposite.toNat % signBit)
    (signs : signBit ≤ bits.toNat ↔ ¬ signBit ≤ opposite.toNat) :
    (@UnpackedFloat.unpack .binary64 bits).neg = @UnpackedFloat.unpack .binary64 opposite := by
  have mantissa : @unpackMantissa .binary64 bits = @unpackMantissa .binary64 opposite := by
    rw [unpackMantissa_def, unpackMantissa_def, ← BitVec.toNat_inj]
    simp only [BitVec.extractLsb'_toNat, signBit] at fields ⊢
    omega
  have exponent : @unpackExponent .binary64 bits = @unpackExponent .binary64 opposite := by
    rw [unpackExponent_def, unpackExponent_def, ← BitVec.toNat_inj]
    simp only [BitVec.extractLsb'_toNat, Nat.shiftRight_eq_div_pow, signBit] at fields ⊢
    omega
  have sign : -Sign.ofBitVec (@unpackSign .binary64 bits) =
      Sign.ofBitVec (@unpackSign .binary64 opposite) := by
    rw [ofBitVec_unpackSign, ofBitVec_unpackSign]
    by_cases negative : signBit ≤ opposite.toNat
    · rw [if_neg (mt signs.mp (not_not.mpr negative)), if_pos negative]
      rfl
    · rw [if_pos (signs.mpr negative), if_neg negative]
      rfl
  simp only [UnpackedFloat.unpack, ← mantissa, ← exponent, ← sign]
  split_ifs <;> rfl

theorem neg_eq_of_toBits {v w : Float}
    (fields : w.toBits.toNat % signBit = v.toBits.toNat % signBit)
    (signs : isNegative w = !isNegative v) : -w = v := by
  have bits : signBit ≤ w.toBits.toNat ↔ ¬ signBit ≤ v.toBits.toNat := by
    rw [Bool.eq_iff_iff] at signs
    simpa [isNegative] using signs
  have opposite : w.toModel.unpack.neg = v.toModel.unpack := unpack_neg fields bits
  rw [← Float.toBits_inj, ← UInt64.toBitVec_inj]
  change UnpackedFloat.pack .binary64 w.toModel.unpack.neg = v.toModel.toBits.toBitVec
  rw [opposite]
  exact pack_unpack_of_valid v.toModel.valid

theorem Magnitude.toBits_toFloat {m : Magnitude} (below : m.bits < infinityBits) :
    m.toFloat.toBits.toNat = m.bits := by
  have word : m.bits < 2 ^ 64 := Nat.lt_trans below (by decide)
  have exponent : @unpackExponent .binary64 (UInt64.ofNat m.bits).toBitVec ≠ -1#11 := by
    rw [unpackExponent_def, Ne, ← BitVec.toNat_inj]
    simp only [infinityBits] at below
    simp [Nat.shiftRight_eq_div_pow]
    omega
  -- Only a NaN would be packed as another pattern.
  have packed : m.toFloat.toBits.toBitVec = (UInt64.ofNat m.bits).toBitVec := by
    change UnpackedFloat.pack .binary64 (UnpackedFloat.unpack .binary64 _) = _
    rw [pack_unpack, if_neg]
    exact fun nan => exponent (of_decide_eq_true nan).1
  rw [UInt64.toBitVec_inj] at packed
  rw [packed, UInt64.toNat_ofNat']
  exact Nat.mod_eq_of_lt word

theorem Magnitude.bits_mod {m : Magnitude} (below : m.bits < infinityBits) :
    m.bits % signBit = m.bits :=
  Nat.mod_eq_of_lt (Nat.lt_trans below (by decide))

theorem Magnitude.isNegative_toFloat {m : Magnitude} (below : m.bits < infinityBits) :
    isNegative m.toFloat = false := by
  have positive : m.bits < signBit := Nat.lt_trans below (by decide)
  simpa [isNegative, toBits_toFloat below] using positive

theorem neg_toFloat_ofFloat {v : Float} (finite : v.isFinite = true)
    (negative : isNegative v = true) : -(Magnitude.ofFloat v).toFloat = v := by
  have below : (Magnitude.ofFloat v).bits < infinityBits := by
    rw [bits_ofFloat finite]
    exact toBits_lt_of_isFinite finite
  apply neg_eq_of_toBits
  · rw [Magnitude.toBits_toFloat below, Magnitude.bits_mod below, bits_ofFloat finite]
  · rw [Magnitude.isNegative_toFloat below, negative]
    rfl

end Calculator
