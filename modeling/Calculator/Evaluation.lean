import Calculator.EvalError
import Calculator.Expr.Basic

/-!
# Evaluation of trees

Operations are those of doubles, except that a division by a zero of either sign is an error. A
tree is evaluated in post-order, left operand first, with pending tasks and finished values kept in
lists, so that depth costs no call stack.
-/

set_option autoImplicit false

namespace Calculator

def UnaryOperator.apply : UnaryOperator → Float → Float
  | .neg, value => -value
  | .pos, value => value

def BinaryOperator.apply (operator : BinaryOperator) (left right : Float) (position : Nat) :
    Except EvalError Float :=
  match operator with
  | .add => .ok (left + right)
  | .sub => .ok (left - right)
  | .mul => .ok (left * right)
  | .div => if right == 0 then .error (.divisionByZero position) else .ok (left / right)

namespace Expr

/-- What an evaluation has left to do. -/
inductive Task where
  /-- Push the value of a tree. -/
  | visit (e : Expr)
  /-- Replace the last value by that of a prefix operation. -/
  | unary (operator : UnaryOperator)
  /-- Replace the last two values by that of an infix operation. -/
  | binary (operator : BinaryOperator) (position : Nat)

/-- A bound on the number of steps that pending tasks take. -/
def Task.steps : List Task → Nat
  | [] => 0
  | .visit e :: rest => 2 * e.size + steps rest
  | _ :: rest => steps rest + 1

/-- Performs the pending tasks on a stack of values, the last one first, and expects one value to
remain. -/
def runTasks : List Task → List Float → Except EvalError Float
  | [], [value] => .ok value
  | [], values => .error (.internal (.unbalancedStack values.length))
  | .visit (.literal value _) :: tasks, values => runTasks tasks (value :: values)
  | .visit (.unary operator operand _) :: tasks, values =>
      runTasks (.visit operand :: .unary operator :: tasks) values
  | .visit (.binary operator left right position) :: tasks, values =>
      runTasks (.visit left :: .visit right :: .binary operator position :: tasks) values
  | .unary operator :: tasks, value :: values => runTasks tasks (operator.apply value :: values)
  | .unary operator :: _, [] =>
      .error (.internal (.missingOperand (String.singleton operator.symbol)))
  | .binary operator position :: tasks, right :: left :: values =>
      match operator.apply left right position with
      | .ok value => runTasks tasks (value :: values)
      | .error error => .error error
  | .binary operator _ :: _, _ =>
      .error (.internal (.missingOperand (String.singleton operator.symbol)))
termination_by tasks => Task.steps tasks
decreasing_by all_goals simp only [Task.steps, size]; omega

/-- The value of a tree, or the first division by zero. -/
def eval (e : Expr) : Except EvalError Float :=
  runTasks [.visit e] []

end Expr

end Calculator
