import Calculator.EvalError
import Calculator.Expr.Basic

/-!
# Parsers of lexemes

A parser makes a value or an error of the lexemes before it and says which of them it leaves. What
is left is always an end of what was given, also after an error, whose offending lexeme is the first
one left. This is what makes a chain of operands end.
-/

set_option autoImplicit false

namespace Calculator

/-- What a parser makes of its input, and the lexemes that it leaves. -/
abbrev Parsed := Except EvalError Expr × List Lexeme

/-- A way to read one expression from the head of a list of lexemes. -/
structure Parser where
  run : List Lexeme → Parsed
  rest_suffix : ∀ input, (run input).2 <:+ input

namespace Parser

/-- Goes on after the operand `left` with as many operators, each followed by an operand, as there
are; every operator takes all that stands before it as its left side. -/
def chainFrom (operand : Parser) (operator? : Token → Option BinaryOperator) (left : Expr) :
    List Lexeme → Parsed
  | [] => (.ok left, [])
  | next :: rest =>
      match operator? next.token with
      | none => (.ok left, next :: rest)
      | some operator =>
          match _run : operand.run rest with
          | (.error error, rest') => (.error error, rest')
          | (.ok right, rest') =>
              chainFrom operand operator? (.binary operator left right next.offset) rest'
termination_by input => input.length
decreasing_by
  have suffix := (operand.rest_suffix rest).length_le
  rw [_run] at suffix
  simp only [List.length_cons]
  exact Nat.lt_succ_of_le suffix

theorem chainFrom_suffix (operand : Parser) (operator? : Token → Option BinaryOperator)
    (left : Expr) (input : List Lexeme) :
    (chainFrom operand operator? left input).2 <:+ input := by
  fun_induction chainFrom operand operator? left input with
  | case1 => exact List.suffix_rfl
  | case2 => exact List.suffix_rfl
  | case3 left next rest operator _ error rest' run =>
      have suffix := operand.rest_suffix rest
      rw [run] at suffix
      exact suffix.trans (List.suffix_cons next rest)
  | case4 left next rest operator _ right rest' run ih =>
      have suffix := operand.rest_suffix rest
      rw [run] at suffix
      exact (ih.trans suffix).trans (List.suffix_cons next rest)

/-- Operands joined by operators, grouped from the left. -/
def chain (operand : Parser) (operator? : Token → Option BinaryOperator) : Parser where
  run input :=
    match operand.run input with
    | (.error error, rest) => (.error error, rest)
    | (.ok left, rest) => chainFrom operand operator? left rest
  rest_suffix input := by
    have first := operand.rest_suffix input
    split
    · rename_i run
      rw [run] at first
      exact first
    · rename_i left rest run
      rw [run] at first
      exact (chainFrom_suffix operand operator? left rest).trans first

end Parser

end Calculator
