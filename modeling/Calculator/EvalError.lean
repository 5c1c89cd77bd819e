import Calculator.Token.Basic

/-!
# Errors of an evaluation

Every way in which reading or evaluating an expression can fail, the position it refers to, and the
one place where each is worded. Internal errors are kept apart: no source text causes them.
-/

set_option autoImplicit false

namespace Calculator

/-- What would have been accepted where another token stood. -/
inductive Expected where
  | operand
  | closingParen
  | endOfExpression
  deriving DecidableEq

/-- A broken invariant of the engine. -/
inductive InternalError where
  /-- The lexemes ended without an end marker. -/
  | tokenStreamExhausted
  /-- This operator found too few values. -/
  | missingOperand (operator : String)
  /-- An evaluation ended with this number of values instead of one. -/
  | unbalancedStack (count : Nat)
  deriving DecidableEq

/-- The cause of a failed evaluation. Positions are byte offsets into the source. -/
inductive EvalError where
  /-- A character that starts no token. -/
  | unexpectedChar (position : Nat) (character : Char)
  /-- A token that cannot stand where it was found. -/
  | unexpectedToken (position : Nat) (expected : Expected) (found : Token)
  /-- The end of the source where an operand or a closing parenthesis is needed. -/
  | unexpectedEnd (position : Nat)
  /-- A division, at this operator, whose divisor is zero. -/
  | divisionByZero (position : Nat)
  /-- A source without tokens. -/
  | emptyExpression
  /-- A prefix operator or parenthesis enclosed by as many others as are allowed. -/
  | nestingTooDeep (position limit : Nat)
  | internal (cause : InternalError)
  deriving DecidableEq

namespace Expected

def text : Expected → String
  | .operand => "a number or '('"
  | .closingParen => "')'"
  | .endOfExpression => "end of expression"

end Expected

namespace InternalError

def message : InternalError → String
  | .tokenStreamExhausted => "Internal error: Token stream ended without an end marker."
  | .missingOperand operator => "Internal error: Missing operand for '" ++ operator ++ "'."
  | .unbalancedStack count =>
      "Internal error: Evaluation left " ++ count.repr ++ " values on the stack."

end InternalError

namespace EvalError

def position? : EvalError → Option Nat
  | .unexpectedChar position _ => some position
  | .unexpectedToken position _ _ => some position
  | .unexpectedEnd position => some position
  | .divisionByZero position => some position
  | .emptyExpression => none
  | .nestingTooDeep position _ => some position
  | .internal _ => none

/-- Whether an error is a broken invariant and not a fault of the source. -/
def isInternal : EvalError → Bool
  | .internal _ => true
  | _ => false

def located (position : Nat) (text : String) : String :=
  "Error at position " ++ position.repr ++ ": " ++ text

def message : EvalError → String
  | .unexpectedChar position character =>
      located position ("Unexpected character '" ++ String.singleton character ++ "'.")
  | .unexpectedToken position expected found =>
      located position ("Expected " ++ expected.text ++ ", but found " ++ found.text ++ ".")
  | .unexpectedEnd position => located position "Unexpected end of expression."
  | .divisionByZero position => located position "Division by zero."
  | .emptyExpression => "Expression is empty."
  | .nestingTooDeep position limit =>
      located position
        ("Expression is nested too deeply, at most " ++ limit.repr ++ " levels are allowed.")
  | .internal cause => cause.message

/-- Whether two errors agree in kind and all details, numbers being compared as numbers. -/
def equal : EvalError → EvalError → Bool
  | .unexpectedToken p e found, .unexpectedToken q f other =>
      decide (p = q) && decide (e = f) && found.equal other
  | .unexpectedToken _ _ _, _ => false
  | _, .unexpectedToken _ _ _ => false
  | a, b => decide (a = b)

end EvalError

end Calculator
