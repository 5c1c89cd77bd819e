import Calculator.Evaluation
import Calculator.Parser.Expression
import Calculator.Token.Scanner

/-!
# The engine

From source text to a tree and to a value. The whole source is read as lexemes before any of it is
parsed, so a character that starts no token is reported even after a misplaced token.
-/

set_option autoImplicit false

namespace Calculator

def parse (source : String) : Except EvalError Expr :=
  match tokenize source with
  | .error error => .error error
  | .ok lexemes => parseLexemes lexemes

def evaluate (source : String) : Except EvalError Float :=
  match parse source with
  | .error error => .error error
  | .ok e => e.eval

end Calculator
