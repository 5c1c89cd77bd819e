import Calculator.Parser.Expression

/-!
# Phrases of the grammar

    sum     := product (("+" | "-") product)*
    product := factor (("*" | "/") factor)*
    factor  := ("+" | "-") factor | number | "(" sum ")"

A derivation says which lexemes make a phrase, which tree they make, and how many prefix operators
and groups enclose the most deeply enclosed of them, each counted for itself as well. It knows
nothing of lookahead, and no depth is too great for it.
-/

set_option autoImplicit false

namespace Calculator.Grammar

inductive Category where
  | factor
  | product
  | sum

/-- Phrases of the first kind are phrases of the second kind joined by infix operators. -/
inductive Chains : Category → Category → Prop where
  | products : Chains .product .factor
  | sums : Chains .sum .product

/-- The infix operators that join the parts of a phrase. -/
inductive Joins : Category → Token → BinaryOperator → Prop where
  | plus : Joins .sum .plus .add
  | minus : Joins .sum .minus .sub
  | star : Joins .product .star .mul
  | slash : Joins .product .slash .div

/-- The prefix operators. -/
inductive Signs : Token → UnaryOperator → Prop where
  | plus : Signs .plus .pos
  | minus : Signs .minus .neg

/-- `Derives category input e depth`: the lexemes of `input` are one phrase of the category, whose
tree is `e`. Chains lean to the left and a group adds no node, but one level of depth. -/
inductive Derives : Category → List Lexeme → Expr → Nat → Prop where
  | number {value offset} : Derives .factor [⟨.number value, offset⟩] (.literal value offset) 0
  | signed {sign operator offset input e depth} :
      Signs sign operator → Derives .factor input e depth →
      Derives .factor (⟨sign, offset⟩ :: input) (.unary operator e offset) (depth + 1)
  | group {opening closing input e depth} :
      Derives .sum input e depth →
      Derives .factor (⟨.leftParen, opening⟩ :: (input ++ [⟨.rightParen, closing⟩])) e (depth + 1)
  | single {outer inner input e depth} :
      Chains outer inner → Derives inner input e depth → Derives outer input e depth
  | joined {outer inner token operator offset left right l r leftDepth rightDepth} :
      Chains outer inner → Joins outer token operator →
      Derives outer left l leftDepth → Derives inner right r rightDepth →
      Derives outer (left ++ ⟨token, offset⟩ :: right) (.binary operator l r offset)
        (max leftDepth rightDepth)

/-- The tokens before an operand: operators and opening parentheses. -/
inductive Leads : Token → Prop where
  | plus : Leads .plus
  | minus : Leads .minus
  | star : Leads .star
  | slash : Leads .slash
  | leftParen : Leads .leftParen

/-- The tokens at the end of an operand. -/
inductive Completes : Token → Prop where
  | number {value} : Completes (.number value)
  | rightParen : Completes .rightParen

theorem Joins.leads {category : Category} {token : Token} {operator : BinaryOperator}
    (joins : Joins category token operator) : Leads token := by
  cases joins with
  | plus => exact .plus
  | minus => exact .minus
  | star => exact .star
  | slash => exact .slash

theorem Signs.leads {token : Token} {operator : UnaryOperator} (signs : Signs token operator) :
    Leads token := by
  cases signs with
  | plus => exact .plus
  | minus => exact .minus

theorem Completes.not_leads {token : Token} (completes : Completes token) : ¬ Leads token := by
  intro leads
  cases completes <;> cases leads

def opened (input : List Lexeme) : Nat :=
  (input.map Lexeme.token).count .leftParen

def closed (input : List Lexeme) : Nat :=
  (input.map Lexeme.token).count .rightParen

@[simp] theorem opened_nil : opened [] = 0 := rfl

@[simp] theorem closed_nil : closed [] = 0 := rfl

@[simp] theorem opened_cons (lexeme : Lexeme) (input : List Lexeme) :
    opened (lexeme :: input) = opened input + if lexeme.token = .leftParen then 1 else 0 := by
  simp [opened, List.count_cons]

@[simp] theorem closed_cons (lexeme : Lexeme) (input : List Lexeme) :
    closed (lexeme :: input) = closed input + if lexeme.token = .rightParen then 1 else 0 := by
  simp [closed, List.count_cons]

@[simp] theorem opened_append (left right : List Lexeme) :
    opened (left ++ right) = opened left + opened right := by
  simp [opened]

@[simp] theorem closed_append (left right : List Lexeme) :
    closed (left ++ right) = closed left + closed right := by
  simp [closed]

theorem Joins.ne_paren {category : Category} {token : Token} {operator : BinaryOperator}
    (joins : Joins category token operator) : token ≠ .leftParen ∧ token ≠ .rightParen := by
  cases joins <;> simp

theorem Signs.ne_paren {token : Token} {operator : UnaryOperator} (signs : Signs token operator) :
    token ≠ .leftParen ∧ token ≠ .rightParen := by
  cases signs <;> simp

namespace Derives

variable {category : Category} {input : List Lexeme} {e : Expr} {depth : Nat}

theorem of_factor (derives : Derives .factor input e depth) (category : Category) :
    Derives category input e depth := by
  cases category with
  | factor => exact derives
  | product => exact .single .products derives
  | sum => exact .single .sums (.single .products derives)

theorem expression (derives : Derives category input e depth) : Derives .sum input e depth := by
  cases category with
  | factor => exact derives.of_factor .sum
  | product => exact .single .sums derives
  | sum => exact derives

theorem ne_nil (derives : Derives category input e depth) : input ≠ [] := by
  induction derives with
  | number => simp
  | signed => simp
  | group => simp
  | single _ _ ih => exact ih
  | joined => simp

theorem proper (derives : Derives category input e depth) :
    ∀ lexeme ∈ input, lexeme.token ≠ .endMarker ∧ lexeme.token ≠ .blank := by
  induction derives with
  | number => simp
  | signed signs _ ih =>
      cases signs <;> simpa using ih
  | group _ ih =>
      intro lexeme member
      rcases List.mem_cons.mp member with rfl | member
      · simp
      · rcases List.mem_append.mp member with member | member
        · exact ih lexeme member
        · simp_all
  | single _ _ ih => exact ih
  | joined _ joins _ _ leftIH rightIH =>
      intro lexeme member
      rcases List.mem_append.mp member with member | member
      · exact leftIH lexeme member
      · rcases List.mem_cons.mp member with rfl | member
        · cases joins <;> simp
        · exact rightIH lexeme member

theorem completes (derives : Derives category input e depth) :
    ∃ last ∈ input.getLast?, Completes last.token := by
  induction derives with
  | number => exact ⟨_, rfl, .number⟩
  | signed _ _ ih =>
      obtain ⟨last, member, completes⟩ := ih
      exact ⟨last, by simp_all [List.getLast?_cons], completes⟩
  | @group _ closing =>
      exact ⟨⟨.rightParen, closing⟩, by simp [List.getLast?_cons], .rightParen⟩
  | single _ _ ih => exact ih
  | joined _ _ _ _ _ ih =>
      obtain ⟨last, member, completes⟩ := ih
      exact ⟨last, by simp_all [List.getLast?_cons], completes⟩

theorem balanced (derives : Derives category input e depth) : opened input = closed input := by
  induction derives with
  | number => rfl
  | signed signs _ ih => simp [signs.ne_paren, ih]
  | group _ ih => simp [ih]
  | single _ _ ih => exact ih
  | joined _ joins _ _ leftIH rightIH => simp [joins.ne_paren, leftIH, rightIH]

end Derives

end Calculator.Grammar
