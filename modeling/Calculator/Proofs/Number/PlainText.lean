import Mathlib
import Calculator.Layout
import Calculator.Proofs.Number.Nearest
import Calculator.Proofs.Scanning.Cover

/-!
# Plain texts of numbers

The plain layout writes a magnitude as a numeral: digits, and where they do not reach the point, more
digits after it. As a token this numeral denotes the same double.
-/

set_option autoImplicit false

namespace Calculator

open Scanning

theorem Scanning.Digits.append {digits more : List Char} (isDigits : Digits digits)
    (all : ∀ c ∈ more, c.isDigit = true) : Digits (digits ++ more) := by
  refine ⟨List.append_ne_nil_of_left_ne_nil isDigits.1 more, ?_⟩
  intro c member
  rcases List.mem_append.mp member with member | member
  · exact isDigits.2 c member
  · exact all c member

theorem isDigit_of_mem_zeros {count : Nat} {c : Char} (member : c ∈ List.replicate count '0') :
    c.isDigit = true := by
  rw [List.eq_of_mem_replicate member]
  rfl

theorem digits_toDigits (n : Nat) : Digits (Nat.toDigits 10 n) :=
  ⟨Nat.toDigits_ne_nil, fun _ member => Nat.isDigit_of_mem_toDigits (by decide) (by decide) member⟩

/-- A number ends at the first character that is no digit. -/
theorem repr_append_inj {c : Char} (ends : c.isDigit = false) {n m : Nat} {rest rest' : List Char}
    (same : n.repr.toList ++ c :: rest = m.repr.toList ++ c :: rest') : n = m ∧ rest = rest' := by
  have digits (n : Nat) : ∀ c ∈ n.repr.toList, c.isDigit = true := by
    simpa using (digits_toDigits n).2
  have ends (rest : List Char) : EndsBefore Char.isDigit (c :: rest) := .of_head ends rest
  obtain ⟨numbers, rests⟩ := (ends rest).append_inj (ends rest') (digits n) (digits m) same
  exact ⟨Nat.repr_inj.mp (String.toList_inj.mp numbers), (List.cons.inj rests).2⟩

namespace Decimal

theorem digits_isDigits (d : Decimal) : Digits d.digits :=
  digits_toDigits d.coefficient

theorem ofDigits_append_zeros (d : Decimal) (zeros : Nat) :
    ofDigits (d.digits ++ List.replicate zeros '0') [] = ⟨d.coefficient * 10 ^ zeros, 0⟩ := by
  simp [ofDigits, digits, Nat.ofDigitChars_append, Nat.ofDigitChars_replicate_zero, Nat.mul_comm]

/-- All digits, after as many zeros as put one of them before the point. -/
def padded (d : Decimal) : List Char :=
  List.replicate ((-d.exponent).toNat + 1 - d.digits.length) '0' ++ d.digits

theorem isDigit_of_mem_padded {d : Decimal} {c : Char} (member : c ∈ d.padded) :
    c.isDigit = true := by
  rcases List.mem_append.mp member with zero | digit
  · exact isDigit_of_mem_zeros zero
  · exact d.digits_isDigits.2 c digit

theorem eq_zero_of_head?_digits {d : Decimal} (zero : d.digits.head? = some '0') :
    d.coefficient = 0 := by
  unfold digits at zero
  generalize d.coefficient = n at zero
  induction n using Nat.strongRecOn with
  | ind n ih =>
      by_cases small : n < 10
      · rw [Nat.toDigits_of_lt_base small] at zero
        have only : ∀ digit < 10, Nat.digitChar digit = '0' → digit = 0 := by decide
        exact only n small (Option.some.inj zero)
      · rw [Nat.toDigits_of_base_le (by decide) (Nat.le_of_not_lt small),
          List.head?_append_of_ne_nil _ Nat.toDigits_ne_nil] at zero
        have upper := ih (n / 10) (by omega) zero
        omega

/-- The point of a number with a fraction has digits on both sides, which are those of the number, and
no superfluous zero in front. -/
theorem padded_split (layout : Layout) {d : Decimal} (fractional : d.exponent < 0) :
    ∃ whole fraction, layout.positionalText d = whole ++ '.' :: fraction ∧
      Digits whole ∧ Digits fraction ∧ ofDigits whole fraction = d ∧
      (whole.head? = some '0' → whole.length = 1) := by
  let before := d.padded.length - (-d.exponent).toNat
  have longer : (-d.exponent).toNat < d.padded.length := by
    simp only [padded, List.length_append, List.length_replicate]
    omega
  have places : (d.padded.drop before).length = (-d.exponent).toNat := by
    rw [List.length_drop]
    omega
  have coefficient : Nat.ofDigitChars 10 d.padded 0 = d.coefficient := by
    simp [padded, digits, Nat.ofDigitChars_append, Nat.ofDigitChars_replicate_zero]
  refine ⟨d.padded.take before, d.padded.drop before, ?_, ⟨?_, ?_⟩, ⟨?_, ?_⟩, ?_, ?_⟩
  · have negative : ¬ 0 ≤ d.exponent := by omega
    simp only [Layout.positionalText, negative, if_false]
    rfl
  · rw [← List.length_pos_iff, List.length_take]
    omega
  · exact fun _ member => isDigit_of_mem_padded (List.mem_of_mem_take member)
  · rw [← List.length_pos_iff, places]
    omega
  · exact fun _ member => isDigit_of_mem_padded (List.mem_of_mem_drop member)
  · have exponent : -((d.padded.drop before).length : Int) = d.exponent := by omega
    rw [ofDigits, List.take_append_drop, coefficient, exponent]
  · intro zero
    have total : d.padded.length = (-d.exponent).toNat + 1 - d.digits.length + d.digits.length := by
      rw [padded, List.length_append, List.length_replicate]
    by_cases short : d.digits.length ≤ (-d.exponent).toNat
    · rw [List.length_take]
      omega
    · have whole : d.padded = d.digits := by
        rw [padded, Nat.sub_eq_zero_of_le (by omega), List.replicate_zero, List.nil_append]
      have filled : before ≠ 0 := by omega
      rw [List.head?_take, if_neg filled, whole] at zero
      have single : d.digits.length = 1 := by
        rw [digits, eq_zero_of_head?_digits zero]
        rfl
      omega

end Decimal

namespace Layout

/-- Neither a digit nor a point stands at the head of `following`. -/
def EndsNumeral (following : List Char) : Prop :=
  EndsBefore (fun c => c.isDigit || c == '.') following

variable {following : List Char}

theorem EndsNumeral.isDigit (ends : EndsNumeral following) : EndsBefore Char.isDigit following :=
  ends.mono fun c digit => by simp [digit]

theorem EndsNumeral.point (ends : EndsNumeral following) (tail : List Char) :
    following ≠ '.' :: tail :=
  ends.ne_cons rfl tail

theorem EndsNumeral.of_head {c : Char} (neither : (c.isDigit || c == '.') = false)
    (following : List Char) : EndsNumeral (c :: following) :=
  EndsBefore.of_head neither following

theorem munches_positionalText (d : Decimal) (ends : EndsNumeral following) :
    Munches (plain.positionalText d) (.number d.nearest.toFloat) following := by
  by_cases integral : 0 ≤ d.exponent
  · have read : (Decimal.ofDigits (d.digits ++ List.replicate d.exponent.toNat '0') []).nearest =
        d.nearest := by
      rw [Decimal.ofDigits_append_zeros, Decimal.nearest_shift, Int.zero_add,
        Int.toNat_of_nonneg integral]
    simp only [positionalText, integral, plain, if_true, Bool.false_eq_true, if_false, List.append_nil]
    rw [← read]
    exact .whole (d.digits_isDigits.append fun _ => isDigit_of_mem_zeros) ends.isDigit
      fun tail point => absurd point (ends.point tail)
  · obtain ⟨whole, fraction, split, isWhole, isFraction, read, _⟩ :=
      Decimal.padded_split plain (Int.lt_of_not_ge integral)
    rw [split, ← read]
    exact .decimal isWhole isFraction ends.isDigit

end Layout

/-! ## Finite doubles -/

section Finite

open Float.Model

variable {v : Float} (finite : v.isFinite = true)

include finite

theorem isNaN_of_isFinite : v.isNaN = false := by
  simp only [Float.isFinite, Float.isNaN, Float.Model.isFinite, Float.Model.isNaN] at finite ⊢
  cases unpacked : v.toModel.unpack <;> simp_all [UnpackedFloat.isFinite, UnpackedFloat.isNaN]

theorem isInf_of_isFinite : v.isInf = false := by
  simp only [Float.isFinite, Float.isInf, Float.Model.isFinite, Float.Model.isInf] at finite ⊢
  cases unpacked : v.toModel.unpack <;> simp_all [UnpackedFloat.isFinite, UnpackedFloat.isInf]

theorem unpackExponent_of_isFinite :
    @UnpackedFloat.unpackExponent .binary64 v.toBits.toBitVec ≠ -1#11 := by
  intro ones
  simp only [Float.isFinite, Float.Model.isFinite, Float.Model.unpack,
    UnpackedFloat.unpack] at finite
  simp only [Float.toBits] at ones
  rw [if_pos ones] at finite
  split at finite <;> cases finite

theorem toBits_lt_of_isFinite : v.toBits.toNat % signBit < infinityBits := by
  have exponent : v.toBits.toNat / 2 ^ 52 % 2 ^ 11 ≠ 2047 := by
    have ones := unpackExponent_of_isFinite finite
    rw [UnpackedFloat.unpackExponent_def, Ne, ← BitVec.toNat_inj] at ones
    simpa [Nat.shiftRight_eq_div_pow] using ones
  simp only [signBit, infinityBits]
  omega

theorem bits_ofFloat : (Magnitude.ofFloat v).bits = v.toBits.toNat % signBit :=
  Nat.min_eq_left (Nat.le_of_lt (toBits_lt_of_isFinite finite))

theorem toFloat_ofFloat (clear : isNegative v = false) : (Magnitude.ofFloat v).toFloat = v := by
  have positive : v.toBits.toNat < signBit := by simpa [isNegative] using clear
  rw [Magnitude.toFloat, bits_ofFloat finite, Nat.mod_eq_of_lt positive, UInt64.ofNat_toNat]
  exact Float.ofBits_toBits v

theorem Layout.toList_text (layout : Layout) :
    (layout.text v).toList = (if isNegative v then ['-'] else []) ++
      layout.decimalText ((Magnitude.ofFloat v).shortest layout.tie) := by
  simp only [text, isNaN_of_isFinite finite, isInf_of_isFinite finite, Bool.false_eq_true, if_false,
    String.toList_append, String.toList_ofList]
  cases isNegative v <;> rfl

theorem Layout.toList_plain_text (clear : isNegative v = false) :
    (plain.text v).toList = plain.positionalText ((Magnitude.ofFloat v).shortest plain.tie) := by
  rw [toList_text finite plain, clear]
  rfl

theorem Layout.munches_plain_text (clear : isNegative v = false) {following : List Char}
    (ends : EndsNumeral following) : Munches (plain.text v).toList (.number v) following := by
  have munches := munches_positionalText ((Magnitude.ofFloat v).shortest plain.tie) ends
  rwa [Magnitude.nearest_shortest, toFloat_ofFloat finite clear,
    ← toList_plain_text finite clear] at munches

end Finite

end Calculator
