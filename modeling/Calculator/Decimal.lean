/-!
# Decimal numbers

A nonnegative decimal is a coefficient scaled by a power of ten. It is what a number literal
denotes and what a number is rounded to before it is written; both are exact.
-/

set_option autoImplicit false

namespace Calculator

/-- The number `coefficient · 10 ^ exponent`. -/
structure Decimal where
  coefficient : Nat
  exponent : Int
  deriving DecidableEq

namespace Decimal

/-- The number denoted by the digits before and after a decimal point. -/
def ofDigits (whole fraction : List Char) : Decimal where
  coefficient := Nat.ofDigitChars 10 (whole ++ fraction) 0
  exponent := -(fraction.length : Int)

/-- The upper part of the decimal as a quotient of natural numbers. -/
def numerator (d : Decimal) : Nat :=
  d.coefficient * Nat.pow 10 d.exponent.toNat

/-- The lower part of the decimal as a quotient of natural numbers, a power of ten. -/
def denominator (d : Decimal) : Nat :=
  Nat.pow 10 (-d.exponent).toNat

/-- The digits of the coefficient, most significant first; zero has one digit. -/
def digits (d : Decimal) : List Char :=
  Nat.toDigits 10 d.coefficient

/-- The power of ten of the most significant digit. -/
def leadingExponent (d : Decimal) : Int :=
  d.exponent + d.digits.length - 1

/-- The same number without trailing zeros in its coefficient, zero having exponent zero. -/
def trim (d : Decimal) : Decimal :=
  if d.coefficient = 0 then ⟨0, 0⟩
  else if d.coefficient % 10 = 0 then trim ⟨d.coefficient / 10, d.exponent + 1⟩
  else d
termination_by d.coefficient
decreasing_by omega

end Decimal

end Calculator
