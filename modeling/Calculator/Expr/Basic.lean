import Calculator.Operator

/-!
# Expression trees

A tree of literals and operators, each node with the byte offset of the token it was made from.
Parentheses leave no node. Trees may be far deeper than a call stack, as a long chain of infix
operators makes them, so measuring and comparing them keeps its own list of pending nodes; the
sizes of pending trees bound these loops.
-/

set_option autoImplicit false

namespace Calculator

inductive Expr where
  | literal (value : Float) (position : Nat)
  | unary (operator : UnaryOperator) (operand : Expr) (position : Nat)
  | binary (operator : BinaryOperator) (left right : Expr) (position : Nat)
  deriving DecidableEq

namespace Expr

/-- The offset of the token that the root was made from. -/
def position : Expr → Nat
  | .literal _ position => position
  | .unary _ _ position => position
  | .binary _ _ _ position => position

def size : Expr → Nat
  | .literal _ _ => 1
  | .unary _ operand _ => operand.size + 1
  | .binary _ left right _ => left.size + right.size + 1

theorem size_pos (e : Expr) : 0 < e.size := by
  cases e <;> simp [size]

def pendingSize : List (Expr × Nat) → Nat
  | [] => 0
  | (e, _) :: rest => e.size + pendingSize rest

/-- The greatest level of any node in the pending trees, each given with the level of its root, and
at least `deepest`. -/
def deepestLevel : List (Expr × Nat) → Nat → Nat
  | [], deepest => deepest
  | (.literal _ _, level) :: rest, deepest => deepestLevel rest (max deepest level)
  | (.unary _ operand _, level) :: rest, deepest =>
      deepestLevel ((operand, level + 1) :: rest) (max deepest level)
  | (.binary _ left right _, level) :: rest, deepest =>
      deepestLevel ((right, level + 1) :: (left, level + 1) :: rest) (max deepest level)
termination_by pending => pendingSize pending
decreasing_by all_goals simp only [pendingSize, size]; omega

/-- The number of nodes on the longest path from the root to a literal. -/
def depth (e : Expr) : Nat :=
  deepestLevel [(e, 1)] 0

def pairSize : List (Expr × Expr) → Nat
  | [] => 0
  | (e, _) :: rest => e.size + pairSize rest

/-- Whether the trees of every pending pair agree in shape, operators and positions, with literals
that are equal as numbers. -/
def equalPairs : List (Expr × Expr) → Bool
  | [] => true
  | (.literal a p, .literal b q) :: rest =>
      if a == b && p == q then equalPairs rest else false
  | (.unary o x p, .unary o' y q) :: rest =>
      if o = o' ∧ p = q then equalPairs ((x, y) :: rest) else false
  | (.binary o x x' p, .binary o' y y' q) :: rest =>
      if o = o' ∧ p = q then equalPairs ((x, y) :: (x', y') :: rest) else false
  | _ :: _ => false
termination_by pairs => pairSize pairs
decreasing_by all_goals simp only [pairSize, size]; omega

/-- Equality of trees as expressions of numbers: zeros of either sign are equal, and a tree with a
NaN equals nothing. -/
def equal (a b : Expr) : Bool :=
  equalPairs [(a, b)]

end Expr

end Calculator
