import Mathlib
import Calculator.Evaluation

/-!
# Values of trees

The value of a tree by recursion on it, and which of its divisions fails: the first in post-order
whose divisor is a zero of either sign.
-/

set_option autoImplicit false

namespace Calculator

theorem beq_zero_iff {value : Float} : (value == 0) = true ↔ value = 0.0 ∨ value = -0.0 := by
  rw [Float.beq_iff_ne_nan_and_eq]
  constructor
  · intro ⟨_, _, same⟩
    rcases same with zero | ⟨_, negative⟩ | ⟨zero, _⟩
    · exact .inl zero
    · exact absurd negative (by decide)
    · exact .inr zero
  · intro zero
    rcases zero with rfl | rfl <;> decide

namespace Expr

/-- The value of a tree from those of its operands, the left one before the right one. The first
error is that of the tree. -/
def value : Expr → Except EvalError Float
  | .literal value _ => .ok value
  | .unary operator operand _ => do
      let result ← operand.value
      return operator.apply result
  | .binary operator left right position => do
      let leftResult ← left.value
      let rightResult ← right.value
      operator.apply leftResult rightResult position

/-- The nodes of a tree, each after those of its operands. -/
def postorder : Expr → List Expr
  | .literal value position => [.literal value position]
  | .unary operator operand position => operand.postorder ++ [.unary operator operand position]
  | .binary operator left right position =>
      left.postorder ++ right.postorder ++ [.binary operator left right position]

/-- Whether a node is a division whose divisor has the value `0` or `-0`. -/
inductive DividesByZero : Expr → Prop where
  | intro {left right position divisor} :
      right.value = .ok divisor → divisor = 0.0 ∨ divisor = -0.0 →
      DividesByZero (.binary .div left right position)

/-- `FirstZeroDivision nodes position`: the first node that divides by zero stands at `position`. -/
def FirstZeroDivision (nodes : List Expr) (position : Nat) : Prop :=
  ∃ before node after, nodes = before ++ node :: after ∧
    (∀ earlier ∈ before, ¬ DividesByZero earlier) ∧ DividesByZero node ∧ node.position = position

theorem apply_eq_error_iff {operator : BinaryOperator} {left right : Float} {position : Nat}
    {error : EvalError} :
    operator.apply left right position = .error error ↔
      operator = .div ∧ (right = 0.0 ∨ right = -0.0) ∧ error = .divisionByZero position := by
  cases operator with
  | add => simp [BinaryOperator.apply]
  | sub => simp [BinaryOperator.apply]
  | mul => simp [BinaryOperator.apply]
  | div =>
      rw [← beq_zero_iff]
      by_cases zero : (right == 0) = true
      · simp [BinaryOperator.apply, zero, eq_comm]
      · simp [BinaryOperator.apply, zero]

private theorem not_dividesByZero_append {before nodes : List Expr}
    (none : ∀ node ∈ before, ¬ DividesByZero node)
    (noneAfter : ∀ node ∈ nodes, ¬ DividesByZero node) :
    ∀ node ∈ before ++ nodes, ¬ DividesByZero node := by
  intro node member
  rcases List.mem_append.mp member with member | member
  · exact none node member
  · exact noneAfter node member

private theorem eq_of_cons_eq_append {node other : Expr} {after more otherAfter : List Expr}
    (split : node :: after = more ++ other :: otherAfter) (divides : DividesByZero node)
    (none : ∀ earlier ∈ more, ¬ DividesByZero earlier) : node = other := by
  cases more with
  | nil => exact (List.cons.inj split).1
  | cons head more =>
      obtain ⟨rfl, _⟩ := List.cons.inj split
      exact absurd divides (none node List.mem_cons_self)

namespace FirstZeroDivision

variable {nodes before : List Expr} {position : Nat}

theorem append_right (first : FirstZeroDivision nodes position) (after : List Expr) :
    FirstZeroDivision (nodes ++ after) position := by
  obtain ⟨before, node, between, rfl, none, divides, found⟩ := first
  exact ⟨before, node, between ++ after, by simp, none, divides, found⟩

theorem append_left (first : FirstZeroDivision nodes position)
    (none : ∀ earlier ∈ before, ¬ DividesByZero earlier) :
    FirstZeroDivision (before ++ nodes) position := by
  obtain ⟨between, node, after, rfl, noneBetween, divides, found⟩ := first
  exact ⟨before ++ between, node, after, by simp, not_dividesByZero_append none noneBetween,
    divides, found⟩

theorem exists_mem (first : FirstZeroDivision nodes position) :
    ∃ node ∈ nodes, DividesByZero node := by
  obtain ⟨before, node, after, rfl, _, divides, _⟩ := first
  exact ⟨node, by simp, divides⟩

theorem unique {other : Nat} (first : FirstZeroDivision nodes position)
    (otherFirst : FirstZeroDivision nodes other) : position = other := by
  obtain ⟨before, node, after, rfl, none, divides, rfl⟩ := first
  obtain ⟨otherBefore, otherNode, otherAfter, split, otherNone, otherDivides, rfl⟩ := otherFirst
  rcases List.append_eq_append_iff.mp split with ⟨more, rfl, rest⟩ | ⟨more, rfl, rest⟩
  · have noneBetween : ∀ earlier ∈ more, ¬ DividesByZero earlier := fun earlier member =>
      otherNone earlier (List.mem_append_right before member)
    rw [eq_of_cons_eq_append rest divides noneBetween]
  · have noneBetween : ∀ earlier ∈ more, ¬ DividesByZero earlier := fun earlier member =>
      none earlier (List.mem_append_right otherBefore member)
    rw [eq_of_cons_eq_append rest otherDivides noneBetween]

end FirstZeroDivision

/-- A tree has a value if none of its nodes divides by zero, and else fails at the first that
does. -/
theorem value_ok_or_error (e : Expr) :
    (∃ result, e.value = .ok result ∧ ∀ node ∈ e.postorder, ¬ DividesByZero node) ∨
    ∃ position, e.value = .error (.divisionByZero position) ∧
      FirstZeroDivision e.postorder position := by
  induction e with
  | literal value position =>
      refine .inl ⟨value, rfl, ?_⟩
      intro node member
      rw [List.mem_singleton.mp member]
      exact nofun
  | unary operator operand position ih =>
      rcases ih with ⟨result, evaluated, none⟩ | ⟨fault, failed, first⟩
      · refine .inl ⟨operator.apply result, by rw [value, evaluated]; rfl, ?_⟩
        apply not_dividesByZero_append none
        intro node member
        rw [List.mem_singleton.mp member]
        exact nofun
      · exact .inr ⟨fault, by rw [value, failed]; rfl, first.append_right _⟩
  | binary operator left right position leftIH rightIH =>
      rcases leftIH with ⟨leftResult, leftEvaluated, leftNone⟩ | ⟨fault, failed, first⟩
      · rcases rightIH with ⟨rightResult, rightEvaluated, rightNone⟩ | ⟨fault, failed, first⟩
        · have none := not_dividesByZero_append leftNone rightNone
          have applied : (Expr.binary operator left right position).value =
              operator.apply leftResult rightResult position := by
            rw [value, leftEvaluated, rightEvaluated]
            rfl
          cases outcome : operator.apply leftResult rightResult position with
          | error error =>
              obtain ⟨rfl, zero, rfl⟩ := apply_eq_error_iff.mp outcome
              have first : FirstZeroDivision [.binary .div left right position] position :=
                ⟨[], _, [], rfl, nofun, .intro rightEvaluated zero, rfl⟩
              exact .inr ⟨position, by rw [applied, outcome], first.append_left none⟩
          | ok result =>
              refine .inl ⟨result, by rw [applied, outcome], ?_⟩
              apply not_dividesByZero_append none
              intro node member divides
              rw [List.mem_singleton.mp member] at divides
              cases divides with
              | intro evaluated zero =>
                  rw [rightEvaluated] at evaluated
                  cases evaluated
                  rw [apply_eq_error_iff.mpr ⟨rfl, zero, rfl⟩] at outcome
                  cases outcome
        · refine .inr ⟨fault, by rw [value, leftEvaluated, failed]; rfl, ?_⟩
          exact (first.append_left leftNone).append_right _
      · refine .inr ⟨fault, by rw [value, failed]; rfl, ?_⟩
        exact (first.append_right _).append_right _

theorem value_eq_error_iff {e : Expr} {error : EvalError} :
    e.value = .error error ↔
      ∃ position, error = .divisionByZero position ∧ FirstZeroDivision e.postorder position := by
  rcases e.value_ok_or_error with ⟨result, evaluated, none⟩ | ⟨fault, failed, first⟩
  · rw [evaluated]
    constructor
    · exact nofun
    · intro ⟨position, _, first⟩
      obtain ⟨node, member, divides⟩ := first.exists_mem
      exact absurd divides (none node member)
  · rw [failed]
    constructor
    · intro same
      cases same
      exact ⟨fault, rfl, first⟩
    · intro ⟨position, same, otherFirst⟩
      rw [same, first.unique otherFirst]

end Expr

end Calculator
