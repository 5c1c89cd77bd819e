/-!
# Rounding of quotients

A quotient of natural numbers rounded to the nearest natural number. Only a remainder of exactly
half the divisor leaves a choice, and `Tie` names the two choices in use.
-/

set_option autoImplicit false

namespace Calculator

/-- Which neighbour is taken when a number lies exactly halfway between two. -/
inductive Tie where
  /-- The greater one. -/
  | up
  /-- The even one. -/
  | even
  deriving DecidableEq

/-- The natural number nearest to `num / den`. -/
def roundDiv (tie : Tie) (num den : Nat) : Nat :=
  let quotient := num / den
  let twice := 2 * (num % den)
  if twice < den then quotient
  else if den < twice then quotient + 1
  else match tie with
    | .up => quotient + 1
    | .even => if quotient % 2 = 0 then quotient else quotient + 1

end Calculator
