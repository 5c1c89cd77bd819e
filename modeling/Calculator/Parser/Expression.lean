import Calculator.Parser.Basic

/-!
# The grammar of expressions

    sum     := product (("+" | "-") product)*
    product := factor (("*" | "/") factor)*
    factor  := ("+" | "-") factor | number | "(" sum ")"

Infix operators group from the left and make a chain of any length. Prefix operators and parentheses
enclose a factor or a sum, at most `maxNesting` of them one inside another. The next lexeme alone
decides, and the end marker is never taken.
-/

set_option autoImplicit false

namespace Calculator

namespace Parser

/-- The number of prefix operators and parentheses that may enclose one another. -/
def maxNesting : Nat := 512

def product (factor : Parser) : Parser :=
  chain factor Token.multiplicativeOperator?

def sum (factor : Parser) : Parser :=
  chain (product factor) Token.additiveOperator?

/-- A lexeme that cannot stand where an operand or a parenthesis is needed. -/
def refusal (expected : Expected) (found : Lexeme) : EvalError :=
  match found.token with
  | .endMarker => .unexpectedEnd found.offset
  | token => .unexpectedToken found.offset expected token

/-- The closing parenthesis after an enclosed expression. -/
def close (e : Expr) : List Lexeme → Parsed
  | [] => (.error (.internal .tokenStreamExhausted), [])
  | next :: rest =>
      match next.token with
      | .rightParen => (.ok e, rest)
      | _ => (.error (refusal .closingParen next), next :: rest)

/-- One factor after the lexeme that it starts with has been seen. The factors enclosed by that
lexeme are read by `inner`, which is absent where no further nesting is allowed. -/
def factorAt (inner : Option Parser) (next : Lexeme) (rest : List Lexeme) : Parsed :=
  match next.token.unaryOperator? with
  | some operator =>
      match inner with
      | none => (.error (.nestingTooDeep next.offset maxNesting), next :: rest)
      | some factor =>
          match factor.run rest with
          | (.error error, rest') => (.error error, rest')
          | (.ok operand, rest') => (.ok (.unary operator operand next.offset), rest')
  | none =>
      match next.token with
      | .number value => (.ok (.literal value next.offset), rest)
      | .leftParen =>
          match inner with
          | none => (.error (.nestingTooDeep next.offset maxNesting), next :: rest)
          | some factor =>
              match (sum factor).run rest with
              | (.error error, rest') => (.error error, rest')
              | (.ok e, rest') => close e rest'
      | _ => (.error (refusal .operand next), next :: rest)

theorem close_suffix (e : Expr) (input : List Lexeme) : (close e input).2 <:+ input := by
  unfold close
  split
  · exact List.suffix_rfl
  · split
    · exact List.suffix_cons _ _
    · exact List.suffix_rfl

theorem factorAt_suffix (inner : Option Parser) (next : Lexeme) (rest : List Lexeme) :
    (factorAt inner next rest).2 <:+ next :: rest := by
  unfold factorAt
  split
  · split
    · exact List.suffix_rfl
    · rename_i factor
      have suffix := factor.rest_suffix rest
      split <;> rename_i run <;> rw [run] at suffix <;>
        exact suffix.trans (List.suffix_cons next rest)
  · split
    · exact List.suffix_cons _ _
    · split
      · exact List.suffix_rfl
      · rename_i factor
        have suffix := (sum factor).rest_suffix rest
        split
        · rename_i run
          rw [run] at suffix
          exact suffix.trans (List.suffix_cons next rest)
        · rename_i e rest' run
          rw [run] at suffix
          exact ((close_suffix e rest').trans suffix).trans (List.suffix_cons next rest)
    · exact List.suffix_rfl

/-- One factor, whose enclosed factors are read by `inner`. -/
def factorOver (inner : Option Parser) : Parser where
  run
    | [] => (.error (.internal .tokenStreamExhausted), [])
    | next :: rest => factorAt inner next rest
  rest_suffix input := by
    cases input with
    | nil => exact List.suffix_rfl
    | cons next rest => exact factorAt_suffix inner next rest

/-- A factor that may hold `levels` prefix operators and parentheses one inside another. -/
def factor : (levels : Nat) → Parser
  | 0 => factorOver none
  | levels + 1 => factorOver (some (factor levels))

/-- The factors allowed inside `depth` prefix operators and parentheses. -/
def factorWithin (depth : Nat) : Parser :=
  factor (maxNesting - depth)

end Parser

/-- Reads a whole list of lexemes: one expression and then the end marker. -/
def parseLexemes (lexemes : List Lexeme) : Except EvalError Expr :=
  match lexemes with
  | [] => .error (.internal .tokenStreamExhausted)
  | first :: _ =>
      if first.token = .endMarker then .error .emptyExpression
      else
        match (Parser.sum (Parser.factorWithin 0)).run lexemes with
        | (.error error, _) => .error error
        | (.ok _, []) => .error (.internal .tokenStreamExhausted)
        | (.ok e, next :: _) =>
            match next.token with
            | .endMarker => .ok e
            | found => .error (.unexpectedToken next.offset .endOfExpression found)

end Calculator
