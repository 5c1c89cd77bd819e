import Calculator.Layout
import Calculator.Operator

/-!
# Tokens

The units of meaning in source text, and the two ways in which a token is shown: `text` in
messages and `record` where a value is spelled out. A sign is one token whether it stands before an
operand or between two; only the grammar tells which, so both readings are given here.
-/

set_option autoImplicit false

namespace Calculator

/-- A unit of source text. `blank` stands for skipped space and is never read from a source;
`endMarker` follows the last token of every source. -/
inductive Token where
  | number (value : Float)
  | plus
  | minus
  | star
  | slash
  | leftParen
  | rightParen
  | endMarker
  | blank
  deriving DecidableEq

/-- A token and the byte offset at which it starts. -/
structure Lexeme where
  token : Token
  offset : Nat
  deriving DecidableEq

namespace Token

def unaryOperator? : Token → Option UnaryOperator
  | .plus => some .pos
  | .minus => some .neg
  | _ => none

def additiveOperator? : Token → Option BinaryOperator
  | .plus => some .add
  | .minus => some .sub
  | _ => none

def multiplicativeOperator? : Token → Option BinaryOperator
  | .star => some .mul
  | .slash => some .div
  | _ => none

def binaryOperator? (token : Token) : Option BinaryOperator :=
  token.additiveOperator?.or token.multiplicativeOperator?

/-- The description of a token in a message. -/
def text : Token → String
  | .number value => "number " ++ Layout.plain.text value
  | .plus => "'+'"
  | .minus => "'-'"
  | .star => "'*'"
  | .slash => "'/'"
  | .leftParen => "'('"
  | .rightParen => "')'"
  | .endMarker => "end of expression"
  | .blank => "whitespace"

/-- The kind of a token, with the value of a number. -/
def record : Token → String
  | .number value => "Number(" ++ Layout.record.text value ++ ")"
  | .plus => "Plus"
  | .minus => "Minus"
  | .star => "Star"
  | .slash => "Slash"
  | .leftParen => "LParen"
  | .rightParen => "RParen"
  | .endMarker => "End"
  | .blank => "Ignored"

/-- Whether two tokens are of one kind and, if numbers, equal as numbers: zeros of either sign are
equal, and a NaN equals nothing. -/
def equal : Token → Token → Bool
  | .number a, .number b => a == b
  | .number _, _ => false
  | _, .number _ => false
  | a, b => decide (a = b)

end Token

end Calculator
