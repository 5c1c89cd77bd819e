import Calculator.Proofs.Evaluation.Alike
import Calculator.Proofs.Number.Zeros
import Calculator.Proofs.Trees.Equality

/-!
# Values of equal trees

Equal trees have the same number as their value, or fail at the same division. Their literals may differ
in the sign of a zero, and so may values on the way, but no zero of either sign is a divisor.
-/

set_option autoImplicit false

namespace Calculator

/-- Two evaluations that end in the same number, or at a division by zero at the same position. -/
inductive SameResult : Except EvalError Float → Except EvalError Float → Prop where
  | value {v w} : SameNumber v w → SameResult (.ok v) (.ok w)
  | division (position) :
      SameResult (.error (.divisionByZero position)) (.error (.divisionByZero position))

namespace SameResult

variable {first second : Except EvalError Float} {next next' : Float → Except EvalError Float}

/-- What depends on the number alone goes on with the same results. -/
theorem bind (same : SameResult first second)
    (continues : ∀ {v w}, SameNumber v w → SameResult (next v) (next' w)) :
    SameResult (first >>= next) (second >>= next') := by
  cases same with
  | value number => exact continues number
  | division position => exact .division position

theorem ok_or_error (same : SameResult first second) :
    (∃ position, first = .error (.divisionByZero position) ∧
      second = .error (.divisionByZero position)) ∨
    ∃ v w, first = .ok v ∧ second = .ok w ∧
      ((v == w) = true ∨ v.isNaN = true ∧ w.isNaN = true) := by
  cases same with
  | value number => exact .inr ⟨_, _, rfl, rfl, number⟩
  | division position => exact .inl ⟨position, rfl, rfl⟩

end SameResult

section Operations

variable {v v' w w' : Float}

theorem UnaryOperator.apply_congr (operator : UnaryOperator) (same : SameNumber v v') :
    SameNumber (operator.apply v) (operator.apply v') := by
  cases operator with
  | neg => exact same.neg
  | pos => exact same

theorem BinaryOperator.apply_congr (operator : BinaryOperator) (left : SameNumber v v')
    (right : SameNumber w w') (position : Nat) :
    SameResult (operator.apply v w position) (operator.apply v' w' position) := by
  cases operator with
  | add => exact .value (left.add right)
  | sub => exact .value (left.sub right)
  | mul => exact .value (left.mul right)
  | div =>
      have refused := right.zero_iff
      by_cases zero : (w == 0) = true
      · simp only [BinaryOperator.apply, zero, refused.mp zero, if_true]
        exact .division position
      · have quotient := left.div right (by simpa using zero)
        simp only [BinaryOperator.apply, zero, mt refused.mpr zero]
        exact .value quotient

end Operations

namespace Expr

theorem Agree.value_congr {a b : Expr} (agree : Agree a b) : SameResult a.value b.value := by
  induction agree with
  | literal same => exact .value (.inl same)
  | unary _ ih => exact ih.bind fun same => .value (UnaryOperator.apply_congr _ same)
  | binary _ _ leftIH rightIH =>
      exact leftIH.bind fun left => rightIH.bind fun right =>
        BinaryOperator.apply_congr _ left right _

/-- Equal trees fail at a division by zero at the same position, or have values that are equal or both
NaN. -/
theorem eval_of_equal {a b : Expr} (equal : a.equal b = true) :
    (∃ position, a.eval = .error (.divisionByZero position) ∧
      b.eval = .error (.divisionByZero position)) ∨
    ∃ v w, a.eval = .ok v ∧ b.eval = .ok w ∧
      ((v == w) = true ∨ v.isNaN = true ∧ w.isNaN = true) := by
  rw [eval_eq_value, eval_eq_value]
  exact (equal_iff.mp equal).value_congr.ok_or_error

/-- Division by a zero of either sign fails, so the quotients are no infinities of opposite signs. -/
theorem eval_of_equal_zeros :
    ∃ a b : Expr, a.equal b = true ∧ a ≠ b ∧
      a.eval = .error (.divisionByZero 2) ∧ b.eval = .error (.divisionByZero 2) := by
  let quotient (divisor : Float) : Expr := .binary .div (.literal 1 0) (.literal divisor 4) 2
  have equal : (quotient 0).equal (quotient (-0.0)) = true := by decide +kernel
  have differ : quotient 0 ≠ quotient (-0.0) := by decide +kernel
  have failed : (quotient 0).eval = .error (.divisionByZero 2) := by decide +kernel
  refine ⟨_, _, equal, differ, failed, ?_⟩
  rcases eval_of_equal equal with ⟨position, failed', same⟩ | ⟨v, w, evaluated, _⟩
  · obtain rfl : 2 = position := by simpa using failed.symm.trans failed'
    exact same
  · cases failed.symm.trans evaluated

end Expr

end Calculator
