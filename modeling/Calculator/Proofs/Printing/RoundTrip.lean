import Calculator.Proofs.Engine.Position
import Calculator.Proofs.Evaluation.Alike
import Calculator.Proofs.Number.PlainText
import Calculator.Proofs.Printing.Form

/-!
# Parsing of printed trees

The parenthesized text of a tree is an expression for this tree. It is nested as deeply as the tree,
with prefix operators counted for themselves and for their parentheses.
-/

set_option autoImplicit false

namespace Calculator

open Grammar Scanning

namespace Expr

/-- Whether all literals of a tree have the property. -/
def EachLiteral (p : Float → Prop) : Expr → Prop
  | .literal value _ => p value
  | .unary _ operand _ => operand.EachLiteral p
  | .binary _ left right _ => left.EachLiteral p ∧ right.EachLiteral p

/-- How many prefix operators and parentheses enclose one another in the text of a tree. -/
def nesting : Expr → Nat
  | .literal _ _ => 0
  | .unary _ operand _ => operand.nesting + 2
  | .binary _ left right _ => max left.nesting right.nesting + 1

theorem Alike.write_eq {e e' : Expr} (alike : Alike e e') :
    Form.parenthesized.write e' = Form.parenthesized.write e := by
  induction alike with
  | literal => rw [Form.write_literal, Form.write_literal]
  | unary _ ih => rw [Form.write_unary, Form.write_unary, ih]
  | binary _ _ leftIH rightIH => rw [Form.write_binary, Form.write_binary, leftIH, rightIH]

end Expr

theorem UnaryOperator.signs (operator : UnaryOperator) : Signs operator.token operator := by
  cases operator with
  | neg => exact .minus
  | pos => exact .plus

theorem UnaryOperator.munches (operator : UnaryOperator) (following : List Char) :
    Munches [operator.symbol] operator.token following := by
  cases operator with
  | neg => exact .minus
  | pos => exact .plus

theorem BinaryOperator.munches (operator : BinaryOperator) (following : List Char) :
    Munches [operator.symbol] operator.token following := by
  cases operator with
  | add => exact .plus
  | sub => exact .minus
  | mul => exact .star
  | div => exact .slash

section Derives

variable {left right : List Lexeme} {l r : Expr} {leftDepth rightDepth : Nat}
  (leftDerives : Derives .factor left l leftDepth)
  (rightDerives : Derives .factor right r rightDepth)
  (operator : BinaryOperator)

include leftDerives rightDerives

theorem derives_operation (offset : Nat) :
    Derives .sum (left ++ ⟨operator.token, offset⟩ :: right) (.binary operator l r offset)
      (max leftDepth rightDepth) := by
  cases operator with
  | add => exact .joined .sums .plus (leftDerives.of_factor .sum) (rightDerives.of_factor .product)
  | sub => exact .joined .sums .minus (leftDerives.of_factor .sum) (rightDerives.of_factor .product)
  | mul =>
      exact .single .sums (.joined .products .star (leftDerives.of_factor .product) rightDerives)
  | div =>
      exact .single .sums (.joined .products .slash (leftDerives.of_factor .product) rightDerives)

theorem derives_enclosed_operation (opening offset closing : Nat) :
    Derives .factor
      ([⟨.leftParen, opening⟩] ++ (left ++ ([⟨operator.token, offset⟩] ++
        (right ++ [⟨.rightParen, closing⟩])))) (.binary operator l r offset)
      (max leftDepth rightDepth + 1) := by
  have whole : Derives .factor (⟨.leftParen, opening⟩ :: ((left ++ ⟨operator.token, offset⟩ :: right) ++
      [⟨.rightParen, closing⟩])) (.binary operator l r offset) (max leftDepth rightDepth + 1) :=
    .group (derives_operation leftDerives rightDerives operator offset)
  simpa using whole

end Derives

namespace Expr

/-- `Prints offset text following e`: at the byte `offset` and in front of `following`, the text is
that of a factor whose tree is `e` but for positions. -/
def Prints (offset : Nat) (text following : List Char) (e : Expr) : Prop :=
  ∃ first lexemes e', Covers offset text (first :: lexemes) following ∧
    Derives .factor (first :: lexemes) e' e.nesting ∧ Alike e e'

theorem Prints.unary {offset : Nat} {text following : List Char} {operator : UnaryOperator}
    {operand : Expr} {position : Nat}
    (prints : Prints (offset + byteSize ['('] + byteSize [operator.symbol]) text
      ([')'] ++ following) operand) :
    Prints offset (['('] ++ ([operator.symbol] ++ (text ++ [')']))) following
      (.unary operator operand position) := by
  obtain ⟨first, lexemes, e', covers, derives, alike⟩ := prints
  -- From the end, so that every token meets the text that follows it.
  have enclosed := covers.append (Munches.rightParen.covers _)
  have signed := ((operator.munches _).covers _).append enclosed
  have whole := (Munches.leftParen.covers offset).append signed
  exact ⟨_, _, _, whole, .group ((Derives.signed operator.signs derives).of_factor .sum),
    .unary alike⟩

theorem Prints.binary {offset : Nat} {leftText rightText following : List Char}
    {operator : BinaryOperator} {left right : Expr} {position : Nat}
    (leftPrints : Prints (offset + byteSize ['(']) leftText
      (([' '] ++ [operator.symbol] ++ ([' '] ++ rightText ++ [')'])) ++ following) left)
    (rightPrints : Prints (offset + byteSize ['('] + byteSize leftText +
      byteSize ([' '] ++ [operator.symbol]) + byteSize [' ']) rightText ([')'] ++ following) right) :
    Prints offset
      (['('] ++ (leftText ++ ([' '] ++ [operator.symbol] ++ ([' '] ++ rightText ++ [')']))))
      following (.binary operator left right position) := by
  obtain ⟨first, lexemes, l, leftCovers, leftDerives, leftAlike⟩ := leftPrints
  obtain ⟨next, more, r, rightCovers, rightDerives, rightAlike⟩ := rightPrints
  have blank : ∀ c ∈ [' '], isSeparator c = true := by simp [isSeparator]
  have enclosed := (rightCovers.widen blank).append (Munches.rightParen.covers _)
  have joined := (((operator.munches _).covers _).widen blank).append enclosed
  have whole := (Munches.leftParen.covers offset).append (leftCovers.append joined)
  have derives := derives_enclosed_operation leftDerives rightDerives operator
  exact ⟨_, _, _, whole, derives _ _ _, .binary leftAlike rightAlike⟩

theorem prints_write {e : Expr}
    (plain : e.EachLiteral fun value => value.isFinite = true ∧ isNegative value = false) :
    ∀ offset following, Layout.EndsNumeral following →
      Prints offset (Form.parenthesized.write e).toList following e := by
  induction e with
  | literal value position =>
      intro offset following ends
      obtain ⟨finite, clear⟩ := plain
      rw [Form.write_literal]
      exact ⟨_, _, _, (Layout.munches_plain_text finite clear ends).covers offset, .number, .literal⟩
  | unary operator operand position ih =>
      intro offset following _
      have prints : Prints offset _ following (.unary operator operand position) :=
        .unary (ih plain _ _ (.of_head rfl following))
      simpa [Form.write_unary] using prints
  | binary operator left right position leftIH rightIH =>
      intro offset following _
      have prints : Prints offset _ following (.binary operator left right position) :=
        .binary (leftIH plain.1 _ _ (.of_head rfl _)) (rightIH plain.2 _ _ (.of_head rfl following))
      simpa [Form.write_binary] using prints

section RoundTrip

variable {e : Expr}
  (plain : e.EachLiteral fun value => value.isFinite = true ∧ isNegative value = false)

include plain

theorem exists_partition_write :
    ∃ lexemes e', Partition (Form.parenthesized.write e).toList lexemes ∧
      Derives .sum lexemes e' e.nesting ∧ Alike e e' := by
  obtain ⟨first, lexemes, e', covers, derives, alike⟩ := prints_write plain 0 [] nofun
  have partition := covers.partition nofun
  rw [List.append_nil] at partition
  exact ⟨first :: lexemes, e', partition, derives.of_factor .sum, alike⟩

theorem parse_write_of_le (shallow : e.nesting ≤ 512) :
    ∃ e', parse (Form.parenthesized.write e) = .ok e' ∧ Alike e e' ∧
      ∀ error, e'.eval = .error error → Located (Form.parenthesized.write e) error := by
  obtain ⟨lexemes, e', partition, derives, alike⟩ := exists_partition_write plain
  exact ⟨e', parse_of_derives partition derives shallow, alike,
    fun _ failed => located_of_eval partition derives failed⟩

theorem parse_write_of_lt (deep : 512 < e.nesting) :
    ∃ position, parse (Form.parenthesized.write e) = .error (.nestingTooDeep position 512) := by
  obtain ⟨lexemes, e', partition, derives, _⟩ := exists_partition_write plain
  obtain ⟨position, refused⟩ := derives.parseLexemes_of_lt deep [⟨.endMarker, _⟩]
  refine ⟨position, ?_⟩
  simp only [parse, partition.tokenize]
  exact refused

/-- The text of a tree is parsed as this tree with other positions, which has the same text and the same
value, or a division by zero at the same place. A tree that is nested beyond the limit has a text that
is refused for this. -/
theorem parse_write :
    (e.nesting ≤ 512 → ∃ e', parse (Form.parenthesized.write e) = .ok e' ∧ Alike e e' ∧
      Form.parenthesized.write e' = Form.parenthesized.write e ∧ SameOutcome e e' ∧
      ∀ error, e'.eval = .error error → Located (Form.parenthesized.write e) error) ∧
    (512 < e.nesting →
      ∃ position, parse (Form.parenthesized.write e) = .error (.nestingTooDeep position 512)) := by
  refine ⟨?_, parse_write_of_lt plain⟩
  intro shallow
  obtain ⟨e', parsed, alike, located⟩ := parse_write_of_le plain shallow
  exact ⟨e', parsed, alike, alike.write_eq, alike.sameOutcome, located⟩

end RoundTrip

/-- `((-6) / 0)` is read back with the positions of its text, and 257 prefix operators in parentheses are
too deep. -/
theorem parse_write_quotient :
    (∃ e', parse "((-6) / 0)" = .ok e' ∧
      Alike (.binary .div (.unary .neg (.literal 6 0) 0) (.literal 0 0) 0) e' ∧
      Form.parenthesized.write e' = "((-6) / 0)" ∧ e'.eval = .error (.divisionByZero 6)) ∧
    ∃ position, parse (Form.parenthesized.write
      (Nat.iterate (.unary .neg · 0) 257 (.literal 1 0))) =
        .error (.nestingTooDeep position 512) := by
  have finite : ∀ value ∈ [(0 : Float), 1, 6], value.isFinite = true ∧ isNegative value = false := by
    decide +kernel
  constructor
  · have plain : (Expr.binary .div (.unary .neg (.literal 6 0) 0) (.literal 0 0) 0).EachLiteral
        fun value => value.isFinite = true ∧ isNegative value = false :=
      ⟨finite 6 (by simp), finite 0 (by simp)⟩
    have text : Form.parenthesized.write
        (.binary .div (.unary .neg (.literal 6 0) 0) (.literal 0 0) 0) = "((-6) / 0)" := by
      decide +kernel
    have failed : evaluate "((-6) / 0)" = .error (.divisionByZero 6) := by decide +kernel
    obtain ⟨e', parsed, alike, same, _⟩ := (parse_write plain).1 (by decide)
    rw [text] at parsed same
    exact ⟨e', parsed, alike, same, by simpa only [evaluate, parsed] using failed⟩
  · have plain : (Nat.iterate (Expr.unary .neg · 0) 257 (.literal 1 0)).EachLiteral
        fun value => value.isFinite = true ∧ isNegative value = false :=
      finite 1 (by simp)
    exact (parse_write plain).2 (by decide +kernel)

end Expr

end Calculator
