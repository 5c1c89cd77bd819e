import Calculator.Proofs.Evaluation.Refinement

/-!
# Trees that differ in positions only

Such trees have the same value, or both fail, at divisions that stand at the same place in them.
-/

set_option autoImplicit false

namespace Calculator

namespace Expr

/-- Whether two trees agree in shape, operators and literals, which are compared bit by bit. -/
inductive Alike : Expr → Expr → Prop where
  | literal {value position position'} :
      Alike (.literal value position) (.literal value position')
  | unary {operator operand operand' position position'} :
      Alike operand operand' →
      Alike (.unary operator operand position) (.unary operator operand' position')
  | binary {operator left left' right right' position position'} :
      Alike left left' → Alike right right' →
      Alike (.binary operator left right position) (.binary operator left' right' position')

/-- `Parallel e e' node node'`: the two nodes are at the same place in the two trees. -/
def Parallel (e e' node node' : Expr) : Prop :=
  (node, node') ∈ e.postorder.zip e'.postorder

namespace Alike

variable {e e' : Expr}

theorem length_postorder (alike : Alike e e') : e.postorder.length = e'.postorder.length := by
  induction alike with
  | literal => rfl
  | unary _ ih => simp [postorder, ih]
  | binary _ _ leftIH rightIH => simp [postorder, leftIH, rightIH]

end Alike

namespace Parallel

variable {node node' : Expr} {operator : UnaryOperator} {binaryOperator : BinaryOperator}
  {position position' : Nat}

theorem operand {x x' : Expr} (alike : Alike x x') (parallel : Parallel x x' node node') :
    Parallel (.unary operator x position) (.unary operator x' position') node node' := by
  rw [Parallel, postorder, postorder, List.zip_append alike.length_postorder]
  exact List.mem_append_left _ parallel

variable {l l' r r' : Expr} (left : Alike l l') (right : Alike r r')

include left right

theorem zip_postorder :
    (Expr.binary binaryOperator l r position).postorder.zip
        (Expr.binary binaryOperator l' r' position').postorder =
      l.postorder.zip l'.postorder ++ r.postorder.zip r'.postorder ++
        [(.binary binaryOperator l r position, .binary binaryOperator l' r' position')] := by
  have lengths : (l.postorder ++ r.postorder).length = (l'.postorder ++ r'.postorder).length := by
    simp [left.length_postorder, right.length_postorder]
  rw [postorder, postorder, List.zip_append lengths, List.zip_append left.length_postorder]
  rfl

theorem inLeft (parallel : Parallel l l' node node') :
    Parallel (.binary binaryOperator l r position) (.binary binaryOperator l' r' position')
      node node' := by
  rw [Parallel, zip_postorder left right]
  exact List.mem_append_left _ (List.mem_append_left _ parallel)

theorem inRight (parallel : Parallel r r' node node') :
    Parallel (.binary binaryOperator l r position) (.binary binaryOperator l' r' position')
      node node' := by
  rw [Parallel, zip_postorder left right]
  exact List.mem_append_left _ (List.mem_append_right _ parallel)

theorem root :
    Parallel (.binary binaryOperator l r position) (.binary binaryOperator l' r' position')
      (.binary binaryOperator l r position) (.binary binaryOperator l' r' position') := by
  rw [Parallel, zip_postorder left right]
  exact List.mem_append_right _ List.mem_cons_self

end Parallel

theorem apply_cases (operator : BinaryOperator) (left right : Float) :
    (∃ result, ∀ position, operator.apply left right position = .ok result) ∨
    operator = .div ∧ (right = 0.0 ∨ right = -0.0) ∧
      ∀ position, operator.apply left right position = .error (.divisionByZero position) := by
  by_cases fails : operator = .div ∧ (right = 0.0 ∨ right = -0.0)
  · exact .inr ⟨fails.1, fails.2, fun _ => apply_eq_error_iff.mpr ⟨fails.1, fails.2, rfl⟩⟩
  · refine .inl ?_
    cases operator with
    | add => exact ⟨left + right, fun _ => rfl⟩
    | sub => exact ⟨left - right, fun _ => rfl⟩
    | mul => exact ⟨left * right, fun _ => rfl⟩
    | div =>
        rw [← beq_zero_iff] at fails
        exact ⟨left / right, fun _ => by simp_all [BinaryOperator.apply]⟩

theorem eval_unary (operator : UnaryOperator) (operand : Expr) (position : Nat) :
    (Expr.unary operator operand position).eval =
      (do let result ← operand.eval
          return operator.apply result) := by
  simp only [eval_eq_value, value]

theorem eval_binary (operator : BinaryOperator) (left right : Expr) (position : Nat) :
    (Expr.binary operator left right position).eval =
      (do let leftResult ← left.eval
          let rightResult ← right.eval
          operator.apply leftResult rightResult position) := by
  simp only [eval_eq_value, value]

/-- Both trees have the value, or both fail, at parallel divisions by zero. -/
inductive SameOutcome (e e' : Expr) : Prop where
  | value {result} : e.eval = .ok result → e'.eval = .ok result → SameOutcome e e'
  | division {node node'} :
      Parallel e e' node node' → DividesByZero node → DividesByZero node' →
      e.eval = .error (.divisionByZero node.position) →
      e'.eval = .error (.divisionByZero node'.position) → SameOutcome e e'

namespace SameOutcome

variable {position position' : Nat}

theorem unary {operand operand' : Expr} (alike : Alike operand operand')
    (same : SameOutcome operand operand') (operator : UnaryOperator) :
    SameOutcome (.unary operator operand position) (.unary operator operand' position') := by
  cases same with
  | value evaluated evaluated' =>
      exact .value (by rw [eval_unary, evaluated]; rfl) (by rw [eval_unary, evaluated']; rfl)
  | division parallel divides divides' failed failed' =>
      exact .division (parallel.operand alike) divides divides'
        (by rw [eval_unary, failed]; rfl) (by rw [eval_unary, failed']; rfl)

variable {left left' right right' : Expr} (leftAlike : Alike left left')
  (rightAlike : Alike right right')

include leftAlike rightAlike

theorem operation {leftResult rightResult : Float} (leftEvaluated : left.eval = .ok leftResult)
    (leftEvaluated' : left'.eval = .ok leftResult) (rightEvaluated : right.eval = .ok rightResult)
    (rightEvaluated' : right'.eval = .ok rightResult) (operator : BinaryOperator) :
    SameOutcome (.binary operator left right position) (.binary operator left' right' position') := by
  have applied : (Expr.binary operator left right position).eval =
      operator.apply leftResult rightResult position := by
    rw [eval_binary, leftEvaluated, rightEvaluated]
    rfl
  have applied' : (Expr.binary operator left' right' position').eval =
      operator.apply leftResult rightResult position' := by
    rw [eval_binary, leftEvaluated', rightEvaluated']
    rfl
  rcases apply_cases operator leftResult rightResult with ⟨result, succeeds⟩ | ⟨rfl, zero, fails⟩
  · exact .value (applied.trans (succeeds position)) (applied'.trans (succeeds position'))
  · rw [eval_eq_value] at rightEvaluated rightEvaluated'
    exact .division (.root leftAlike rightAlike) (.intro rightEvaluated zero)
      (.intro rightEvaluated' zero) (applied.trans (fails position))
      (applied'.trans (fails position'))

theorem binary (leftSame : SameOutcome left left') (rightSame : SameOutcome right right')
    (operator : BinaryOperator) :
    SameOutcome (.binary operator left right position) (.binary operator left' right' position') := by
  -- The first failure counts: that of the left operand, then that of the right one.
  cases leftSame with
  | division parallel divides divides' failed failed' =>
      exact .division (parallel.inLeft leftAlike rightAlike) divides divides'
        (by rw [eval_binary, failed]; rfl) (by rw [eval_binary, failed']; rfl)
  | value leftEvaluated leftEvaluated' =>
      cases rightSame with
      | division parallel divides divides' failed failed' =>
          exact .division (parallel.inRight leftAlike rightAlike) divides divides'
            (by rw [eval_binary, leftEvaluated, failed]; rfl)
            (by rw [eval_binary, leftEvaluated', failed']; rfl)
      | value rightEvaluated rightEvaluated' =>
          exact operation leftAlike rightAlike leftEvaluated leftEvaluated' rightEvaluated
            rightEvaluated' operator

end SameOutcome

theorem Alike.sameOutcome {e e' : Expr} (alike : Alike e e') : SameOutcome e e' := by
  induction alike with
  | literal => exact .value (eval_eq_value _) (eval_eq_value _)
  | unary alike same => exact same.unary alike _
  | binary left right leftSame rightSame => exact .binary left right leftSame rightSame _

end Expr

end Calculator
