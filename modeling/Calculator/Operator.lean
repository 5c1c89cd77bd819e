/-!
# Operators

The two prefix operators and the four infix operators, with the symbol that stands for each in
source text and the name that stands for it in records of trees.
-/

set_option autoImplicit false

namespace Calculator

/-- The operators written before one operand. -/
inductive UnaryOperator where
  | neg
  | pos
  deriving DecidableEq

/-- The operators written between two operands. -/
inductive BinaryOperator where
  | add
  | sub
  | mul
  | div
  deriving DecidableEq

namespace UnaryOperator

def symbol : UnaryOperator → Char
  | .neg => '-'
  | .pos => '+'

def name : UnaryOperator → String
  | .neg => "Neg"
  | .pos => "Pos"

end UnaryOperator

namespace BinaryOperator

def symbol : BinaryOperator → Char
  | .add => '+'
  | .sub => '-'
  | .mul => '*'
  | .div => '/'

def name : BinaryOperator → String
  | .add => "Add"
  | .sub => "Sub"
  | .mul => "Mul"
  | .div => "Div"

end BinaryOperator

end Calculator
