import Calculator.Decimal
import Calculator.Magnitude.Basic
import Calculator.Rounding

/-!
# The nearest double of a quotient

Reading a number rounds the exact quotient that its digits denote to the nearest double, an exact
half going to the even significand. One formula covers subnormal and normal results: the quotient
is scaled to units of the least positive double and rounded at the place where 53 bits end, but
never below one unit. A carry out of the significand adds one to the exponent field, as the next
pattern should, and a pattern beyond infinity is infinity.
-/

set_option autoImplicit false

namespace Calculator

namespace Magnitude

/-- The magnitude nearest to `num / den`, ties going to the even significand. -/
def nearest (num den : Nat) : Magnitude :=
  let scaled := num <<< 1074
  let dropped := (scaled / den).log2 - 52
  { bits := min ((dropped <<< 52) + roundDiv .even scaled (den <<< dropped)) infinityBits
    bits_le := Nat.min_le_right _ _ }

end Magnitude

/-- The magnitude that a decimal is read as. -/
def Decimal.nearest (d : Decimal) : Magnitude :=
  .nearest d.numerator d.denominator

end Calculator
