import Mathlib
import Calculator.Proofs.Number.Rounding
import Calculator.Proofs.Scanning.Tokenization

/-!
# Values of numerals

A numeral denotes a rational number, place by place. The token that is read for it holds the double
which this number is rounded to, however many digits there are.
-/

set_option autoImplicit false

namespace Calculator.Scanning

/-! ## What numerals denote -/

def digitValue (c : Char) : ℚ :=
  (c.toNat - '0'.toNat : Nat)

/-- The number that digits before a point denote. Every digit moves those before it up one place. -/
def wholeValue (digits : List Char) : ℚ :=
  digits.foldl (fun value c => 10 * value + digitValue c) 0

/-- The number that digits after a point denote. Every digit moves those after it down one place. -/
def fractionValue (digits : List Char) : ℚ :=
  digits.foldr (fun c value => (digitValue c + value) / 10) 0

def numeralValue (whole fraction : List Char) : ℚ :=
  wholeValue whole + fractionValue fraction

/-- Digits, and a point and more digits if there are any. -/
def numeral (whole fraction : List Char) : List Char :=
  if fraction = [] then whole else whole ++ '.' :: fraction

/-- `NumeralAt source offset whole fraction`: the longest numeral at the byte `offset` of the source
has the digits `whole` before a point and `fraction` after it. -/
structure NumeralAt (source : List Char) (offset : Nat) (whole fraction : List Char) : Prop where
  isWhole : Digits whole
  isFraction : ∀ c ∈ fraction, c.isDigit = true
  longest : ∃ before after, source = before ++ (numeral whole fraction ++ after) ∧
    byteSize before = offset ∧ EndsBefore Char.isDigit after ∧
    (fraction = [] → ∀ tail, after = '.' :: tail → EndsBefore Char.isDigit tail)

theorem cast_digit (init : Nat) (c : Char) :
    ((10 * init + (c.toNat - '0'.toNat) : Nat) : ℚ) = 10 * init + digitValue c := by
  rw [Nat.cast_add, Nat.cast_mul, Nat.cast_ofNat]
  rfl

theorem ofDigitChars_cast (digits : List Char) (init : Nat) :
    ((Nat.ofDigitChars 10 digits init : Nat) : ℚ) =
      digits.foldl (fun value c => 10 * value + digitValue c) init := by
  induction digits generalizing init with
  | nil => rfl
  | cons c digits ih =>
      rw [List.foldl_cons, ← cast_digit, ← ih]
      rfl

/-- Digits that go on after others count in tenths of them. -/
theorem ofDigitChars_eq (digits : List Char) (init : Nat) :
    ((Nat.ofDigitChars 10 digits init : Nat) : ℚ) =
      (init + fractionValue digits) * 10 ^ digits.length := by
  induction digits generalizing init with
  | nil => simp [Nat.ofDigitChars, fractionValue]
  | cons c digits ih =>
      have step : Nat.ofDigitChars 10 (c :: digits) init =
        Nat.ofDigitChars 10 digits (10 * init + (c.toNat - '0'.toNat)) := rfl
      have value : fractionValue (c :: digits) = (digitValue c + fractionValue digits) / 10 := rfl
      rw [step, ih, cast_digit, value, List.length_cons, pow_succ]
      ring

theorem ofDigits_value (whole fraction : List Char) :
    ((Decimal.ofDigits whole fraction).numerator : ℚ) / (Decimal.ofDigits whole fraction).denominator =
      numeralValue whole fraction := by
  have coefficient : ((Nat.ofDigitChars 10 (whole ++ fraction) 0 : Nat) : ℚ) =
      numeralValue whole fraction * 10 ^ fraction.length := by
    have before := ofDigitChars_cast whole 0
    rw [Nat.ofDigitChars_append, ofDigitChars_eq, before, Nat.cast_zero]
    rfl
  have unit : (10 : ℚ) ^ fraction.length ≠ 0 := by positivity
  simp [Decimal.numerator, Decimal.denominator, Decimal.ofDigits, coefficient, unit]

theorem nearest_ofDigits (whole fraction : List Char) :
    (Decimal.ofDigits whole fraction).nearest.toFloat = nearestDouble (numeralValue whole fraction) := by
  rw [← ofDigits_value, nearestDouble_div _ (Decimal.denominator_pos _)]
  rfl

theorem numeralValue_nonneg (whole fraction : List Char) : 0 ≤ numeralValue whole fraction := by
  rw [← ofDigits_value]
  positivity

/-! ## Numerals of a source -/

theorem Munches.exists_numeral {word after : List Char} {value : Float}
    (munches : Munches word (.number value) after) :
    ∃ whole fraction, word = numeral whole fraction ∧ Digits whole ∧
      (∀ c ∈ fraction, c.isDigit = true) ∧ EndsBefore Char.isDigit after ∧
      (fraction = [] → ∀ tail, after = '.' :: tail → EndsBefore Char.isDigit tail) ∧
      value = nearestDouble (numeralValue whole fraction) := by
  cases munches with
  | whole isWhole ends point =>
      exact ⟨word, [], rfl, isWhole, nofun, ends, fun _ => point, nearest_ofDigits _ _⟩
  | @decimal whole fraction _ isWhole isFraction ends =>
      exact ⟨whole, fraction, (if_neg isFraction.1).symm, isWhole, isFraction.2, ends,
        fun empty => absurd empty isFraction.1, nearest_ofDigits _ _⟩

theorem Covers.exists_numeralAt {text following : List Char} {lexemes : List Lexeme}
    (covers : Covers 0 text lexemes following) {value : Float} {offset : Nat}
    (member : ⟨.number value, offset⟩ ∈ lexemes) :
    ∃ whole fraction, NumeralAt (text ++ following) offset whole fraction ∧
      value = nearestDouble (numeralValue whole fraction) := by
  obtain ⟨before, word, after, split, munches, found⟩ := covers.located _ member
  obtain ⟨whole, fraction, rfl, isWhole, isFraction, ends, point, rounded⟩ :=
    munches.exists_numeral
  refine ⟨whole, fraction, ⟨isWhole, isFraction, before, after, split, ?_, ends, point⟩, rounded⟩
  rw [← Nat.zero_add (byteSize before)]
  exact found.symm

/-- Every number among the items of a source is the double that its numeral is rounded to, the same for
all numerals of one value. No digit is refused: an error is never at one. -/
theorem numerals_round (source : String) :
    (∀ value offset, .ok ⟨.number value, offset⟩ ∈ (Scanner.ofString source).items →
      ∃ whole fraction, NumeralAt source.toList offset whole fraction ∧
        Rounds (numeralValue whole fraction) value ∧
        value = nearestDouble (numeralValue whole fraction)) ∧
    ∀ position c, .error (.unexpectedChar position c) ∈ (Scanner.ofString source).items →
      c.isDigit = false := by
  obtain ⟨text, lexemes, gap, ending, last, split, covers, _, items, final⟩ := exists_items source
  rw [items]
  constructor
  · intro value offset member
    have listed : ⟨.number value, offset⟩ ∈ lexemes := by
      rcases List.mem_append.mp member with member | member
      · simpa using member
      · rcases final with ⟨_, rfl⟩ | ⟨c, after, _, foreign, rfl⟩ <;> simp at member
    obtain ⟨whole, fraction, numeralAt, rounded⟩ := covers.exists_numeralAt listed
    rw [split]
    refine ⟨whole, fraction, numeralAt, ?_, rounded⟩
    rw [rounded]
    exact rounds_nearestDouble (numeralValue_nonneg whole fraction)
  · intro position c member
    rcases List.mem_append.mp member with member | member
    · simp at member
    · rcases final with ⟨_, rfl⟩ | ⟨refused, after, _, foreign, rfl⟩
      · simp at member
      · simp only [List.mem_singleton, Except.error.injEq, EvalError.unexpectedChar.injEq] at member
        rw [member.2]
        exact foreign.2.1

end Calculator.Scanning
