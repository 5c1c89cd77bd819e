import Calculator.Proofs.Grammar.Derivation

/-!
# Traversal of trees in source order

Every node of a tree stands for the lexeme that it was made from. Listed in source order, the nodes of
the tree of a phrase are all lexemes of the phrase but its parentheses.
-/

set_option autoImplicit false

namespace Calculator

def UnaryOperator.token : UnaryOperator → Token
  | .neg => .minus
  | .pos => .plus

def BinaryOperator.token : BinaryOperator → Token
  | .add => .plus
  | .sub => .minus
  | .mul => .star
  | .div => .slash

namespace Expr

/-- The lexeme that the root stands for. -/
def lexeme : Expr → Lexeme
  | .literal value position => ⟨.number value, position⟩
  | .unary operator _ position => ⟨operator.token, position⟩
  | .binary operator _ _ position => ⟨operator.token, position⟩

/-- The lexemes that the nodes stand for, an operator between its operands or before its only one. -/
def inorder : Expr → List Lexeme
  | .literal value position => [⟨.number value, position⟩]
  | .unary operator operand position => ⟨operator.token, position⟩ :: operand.inorder
  | .binary operator left right position =>
      left.inorder ++ ⟨operator.token, position⟩ :: right.inorder

theorem length_inorder (e : Expr) : e.inorder.length = e.size := by
  induction e with
  | literal => rfl
  | unary operator operand position ih => rw [inorder, List.length_cons, ih, size]
  | binary operator left right position leftIH rightIH =>
      rw [inorder, List.length_append, List.length_cons, leftIH, rightIH, size, Nat.add_assoc]

end Expr

namespace Grammar

def unparenthesized (input : List Lexeme) : List Lexeme :=
  input.filter fun lexeme => lexeme.token ≠ .leftParen ∧ lexeme.token ≠ .rightParen

@[simp] theorem unparenthesized_append (left right : List Lexeme) :
    unparenthesized (left ++ right) = unparenthesized left ++ unparenthesized right :=
  List.filter_append ..

theorem unparenthesized_cons {lexeme : Lexeme}
    (plain : lexeme.token ≠ .leftParen ∧ lexeme.token ≠ .rightParen) (input : List Lexeme) :
    unparenthesized (lexeme :: input) = lexeme :: unparenthesized input := by
  simp [unparenthesized, plain]

theorem Signs.token_eq {sign : Token} {operator : UnaryOperator} (signs : Signs sign operator) :
    operator.token = sign := by
  cases signs <;> rfl

theorem Joins.token_eq {category : Category} {token : Token} {operator : BinaryOperator}
    (joins : Joins category token operator) : operator.token = token := by
  cases joins <;> rfl

theorem Derives.inorder_eq {category : Category} {input : List Lexeme} {e : Expr} {depth : Nat}
    (derives : Derives category input e depth) : e.inorder = unparenthesized input := by
  induction derives with
  | number => rfl
  | signed signs _ ih =>
      rw [unparenthesized_cons signs.ne_paren, Expr.inorder, ih, signs.token_eq]
  | group _ ih => simpa [unparenthesized] using ih
  | single _ _ ih => exact ih
  | joined _ joins _ _ leftIH rightIH =>
      rw [unparenthesized_append, unparenthesized_cons joins.ne_paren, Expr.inorder, leftIH, rightIH,
        joins.token_eq]

end Grammar

end Calculator
