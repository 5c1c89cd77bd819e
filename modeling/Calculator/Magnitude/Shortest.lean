import Calculator.Magnitude.Nearest

/-!
# The shortest decimal of a double

A double is written with the fewest digits that read back as the same double, and among those with
the nearest to its exact value. The search goes from one digit to seventeen; at each count only the
two decimals around the exact value can be nearest, so only these are tried, the nearer one first.
Whether one reads back is decided by reading it.
-/

set_option autoImplicit false

namespace Calculator

/-- The two decimals around `d` that have `dropped` digits fewer, the nearer one first. -/
def Decimal.neighbours (tie : Tie) (d : Decimal) (dropped : Nat) : List Decimal :=
  let step := Nat.pow 10 dropped
  let near := roundDiv tie d.coefficient step
  let far := if near * step ≤ d.coefficient then near + 1 else near - 1
  [⟨near, d.exponent + dropped⟩, ⟨far, d.exponent + dropped⟩]

namespace Magnitude

/-- The exact value of a finite magnitude. An expansion of halves ends, because a half is five
tenths. -/
def exact (m : Magnitude) : Decimal where
  coefficient := (m.significand <<< (m.scale - 1074)) * Nat.pow 5 (1074 - m.scale)
  exponent := -((1074 - m.scale : Nat) : Int)

/-- The shortest decimal that is read as `m`; of two equally near ones, the one that `tie` names. -/
def shortest (tie : Tie) (m : Magnitude) : Decimal :=
  let exact := m.exact
  let length := exact.digits.length
  let found := (List.range 17).findSome? fun more =>
    (exact.neighbours tie (length - (more + 1))).find? fun d => d.nearest = m
  (found.getD exact).trim

end Magnitude

end Calculator
