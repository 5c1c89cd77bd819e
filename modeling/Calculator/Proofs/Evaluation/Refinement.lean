import Calculator.Proofs.Evaluation.Semantics

/-!
# Pending tasks

Performing a list of tasks folds what each of them makes of the stack of values, where visiting a
tree adds its value. So an evaluation gives the value of its tree and never lacks an operand.
-/

set_option autoImplicit false

namespace Calculator.Expr

/-- What a task makes of a stack of values. -/
def Task.perform : Task → List Float → Except EvalError (List Float)
  | .visit e, values => do
      let value ← e.value
      return value :: values
  | .unary operator, value :: values => return operator.apply value :: values
  | .unary operator, [] =>
      throw (.internal (.missingOperand (String.singleton operator.symbol)))
  | .binary operator position, right :: left :: values => do
      let value ← operator.apply left right position
      return value :: values
  | .binary operator _, _ =>
      throw (.internal (.missingOperand (String.singleton operator.symbol)))

/-- The stack after every task, performed in turn. -/
def performAll (tasks : List Task) (values : List Float) : Except EvalError (List Float) :=
  tasks.foldlM (fun values task => task.perform values) values

def soleValue : List Float → Except EvalError Float
  | [value] => return value
  | values => throw (.internal (.unbalancedStack values.length))

theorem performAll_cons (task : Task) (tasks : List Task) (values : List Float) :
    performAll (task :: tasks) values = task.perform values >>= performAll tasks := rfl

/-- To visit the operands and then to perform the operation is to visit the tree. -/
theorem performAll_unary (operator : UnaryOperator) (operand : Expr) (position : Nat)
    (tasks : List Task) (values : List Float) :
    performAll (.visit operand :: .unary operator :: tasks) values =
      performAll (.visit (.unary operator operand position) :: tasks) values := by
  simp only [performAll_cons, Task.perform, value, bind_assoc, pure_bind]

theorem performAll_binary (operator : BinaryOperator) (left right : Expr) (position : Nat)
    (tasks : List Task) (values : List Float) :
    performAll (.visit left :: .visit right :: .binary operator position :: tasks) values =
      performAll (.visit (.binary operator left right position) :: tasks) values := by
  simp only [performAll_cons, Task.perform, value, bind_assoc, pure_bind]

/-- A run of pending tasks on any stack performs each of them and leaves the only value. -/
theorem runTasks_eq (tasks : List Task) (values : List Float) :
    runTasks tasks values = performAll tasks values >>= soleValue := by
  fun_induction runTasks tasks values with
  | case1 value => rfl
  | case2 values several =>
      exact (soleValue.eq_2 values several).symm
  | case3 value position tasks values ih => exact ih
  | case4 operator operand position tasks values ih =>
      rw [ih, performAll_unary operator operand position]
  | case5 operator left right position tasks values ih =>
      rw [ih, performAll_binary operator left right position]
  | case6 operator tasks value values ih => exact ih
  | case7 operator tasks => rfl
  | case8 operator position tasks right left values result applied ih =>
      rw [ih, performAll_cons, Task.perform, applied]
      rfl
  | case9 operator position tasks right left values error applied =>
      rw [performAll_cons, Task.perform, applied]
      rfl
  | case10 operator position tasks values few =>
      rw [performAll_cons, Task.perform]
      · rfl
      · exact few

theorem eval_eq_value (e : Expr) : e.eval = e.value := by
  simp only [eval, runTasks_eq, performAll_cons, Task.perform, bind_assoc, pure_bind]
  exact bind_pure e.value

/-- Evaluation with pending tasks is recursive evaluation. It fails only at a division by zero, the
first in post-order. -/
theorem eval_refines (e : Expr) :
    e.eval = e.value ∧
    (∀ error, e.eval = .error error ↔
      ∃ position, error = .divisionByZero position ∧ FirstZeroDivision e.postorder position) ∧
    ∀ cause, e.eval ≠ .error (.internal cause) := by
  rw [eval_eq_value]
  refine ⟨rfl, fun _ => value_eq_error_iff, ?_⟩
  intro cause failed
  obtain ⟨position, same, _⟩ := value_eq_error_iff.mp failed
  cases same

end Calculator.Expr
