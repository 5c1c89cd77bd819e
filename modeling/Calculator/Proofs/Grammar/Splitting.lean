import Calculator.Proofs.Grammar.Recognition

/-!
# The outermost operation

The operators of an expression that stand between operands and outside all parentheses tell its
outermost operation, without any reading: it is the last additive one, or else the last
multiplicative one, or else what the expression starts with.
-/

set_option autoImplicit false

namespace Calculator.Grammar

/-! ## Operators at the top level -/

/-- Whether the lexeme after `before` is an operator of the category that follows an operand outside
all parentheses. -/
def TopInfix (category : Category) (before : List Lexeme) (lexeme : Lexeme) : Prop :=
  (∃ operator, Joins category lexeme.token operator) ∧
    (∃ last ∈ before.getLast?, Completes last.token) ∧ opened before = closed before

def HasTopInfix (category : Category) (input : List Lexeme) : Prop :=
  ∃ before lexeme after, input = before ++ lexeme :: after ∧ TopInfix category before lexeme

/-- The last top-level operator of the category, with what stands before and after it. -/
structure LastTopInfix (category : Category) (input before : List Lexeme) (lexeme : Lexeme)
    (after : List Lexeme) : Prop where
  split : input = before ++ lexeme :: after
  top : TopInfix category before lexeme
  last : ∀ between later rest, after = between ++ later :: rest →
    ¬ TopInfix category (before ++ lexeme :: between) later

variable {category : Category}

namespace TopInfix

variable {before : List Lexeme} {lexeme : Lexeme}

/-- What an operator or a parenthesis introduces has the top-level operators of the whole, if as many
parentheses are closed as opened up to there. -/
theorem of_append {inner : List Lexeme} {lead : Lexeme}
    (top : TopInfix category (before ++ lead :: inner) lexeme) (leads : Leads lead.token)
    (balanced : opened (before ++ [lead]) = closed (before ++ [lead])) :
    TopInfix category inner lexeme := by
  obtain ⟨joins, ⟨last, member, completes⟩, level⟩ := top
  refine ⟨joins, ⟨last, ?_, completes⟩, ?_⟩
  · cases inner with
    | nil =>
        simp only [List.getLast?_append, List.getLast?_singleton, Option.some_or,
          Option.mem_some_iff] at member
        exact absurd (member ▸ leads) completes.not_leads
    | cons first inner => simpa [List.getLast?_append, List.getLast?_cons] using member
  · simp only [opened_append, closed_append, opened_cons, closed_cons, opened_nil,
      closed_nil] at balanced level
    omega

theorem not_start : ¬ TopInfix category [] lexeme := by
  intro ⟨_, ⟨last, member, _⟩, _⟩
  cases member

end TopInfix

namespace Derives

variable {input : List Lexeme} {e : Expr} {depth : Nat}

theorem closed_le_opened (derives : Derives category input e depth) :
    ∀ before, before <+: input → closed before ≤ opened before := by
  induction derives with
  | number =>
      intro before within
      rcases List.prefix_cons_iff.mp within with rfl | ⟨_, rfl, none⟩
      · simp
      · simp [List.prefix_nil.mp none]
  | signed signs _ ih =>
      intro before within
      rcases List.prefix_cons_iff.mp within with rfl | ⟨inner, rfl, inside⟩
      · simp
      · simpa [signs.ne_paren] using ih inner inside
  | group derives ih =>
      intro before within
      rcases List.prefix_cons_iff.mp within with rfl | ⟨inner, rfl, inside⟩
      · simp
      · rcases List.prefix_concat_iff.mp inside with rfl | inside
        · simp [derives.balanced]
        · simpa using Nat.le_succ_of_le (ih inner inside)
  | single _ _ ih => exact ih
  | @joined _ _ token _ offset left _ _ _ _ _ _ joins derives _ leftIH rightIH =>
      intro before within
      rcases List.prefix_or_prefix_of_prefix within (List.prefix_append left _) with
        inside | ⟨more, rfl⟩
      · exact leftIH before inside
      · have after := (List.prefix_append_right_inj left).mp within
        rcases List.prefix_cons_iff.mp after with rfl | ⟨inner, rfl, inside⟩
        · simp [derives.balanced]
        · simpa [derives.balanced, joins.ne_paren] using rightIH inner inside

/-- A phrase has no top-level operators but those that join its parts or the parts of these. -/
theorem continues_of_top (derives : Derives category input e depth) {operators : Category} :
    ∀ before lexeme after, input = before ++ lexeme :: after →
      TopInfix operators before lexeme → Continues category lexeme.token := by
  induction derives with
  | number =>
      intro before lexeme after split top
      rcases List.singleton_eq_append_iff.mp split with ⟨rfl, _⟩ | ⟨_, none⟩
      · exact absurd top TopInfix.not_start
      · cases none
  | @signed sign _ offset _ _ _ signs _ ih =>
      intro before lexeme after split top
      cases before with
      | nil => exact absurd top TopInfix.not_start
      | cons first inner =>
          cases split
          have balanced : opened ([] ++ [⟨sign, offset⟩]) = closed ([] ++ [⟨sign, offset⟩]) := by
            simp [signs.ne_paren]
          have inside : TopInfix operators inner lexeme :=
            TopInfix.of_append top signs.leads balanced
          exact absurd (ih inner lexeme after rfl inside) (not_continues_factor _)
  | @group _ closing input _ _ derives _ =>
      intro before lexeme after split top
      cases before with
      | nil => exact absurd top TopInfix.not_start
      | cons first inner =>
          obtain ⟨rfl, inside⟩ := List.cons.inj split
          obtain ⟨⟨_, joins⟩, _, level⟩ := top
          -- The parenthesis is open up to the last lexeme, which is no operator.
          rcases append_cons_cases inside with ⟨more, rfl⟩ | ⟨rfl, rfl⟩ | ⟨_, _, none⟩
          · have inside := derives.closed_le_opened inner (List.prefix_append _ _)
            simp at level
            omega
          · cases joins
          · simp at none
  | single chains _ ih =>
      intro before lexeme after split top
      exact .inner chains (ih before lexeme after split top)
  | joined chains joins derives _ leftIH rightIH =>
      intro before lexeme after split top
      rcases append_cons_cases split with ⟨more, rfl⟩ | ⟨_, rfl⟩ | ⟨inner, rfl, rfl⟩
      · exact leftIH before lexeme more rfl top
      · exact .joins joins
      · have inside : TopInfix operators inner lexeme :=
          top.of_append joins.leads (by simp [joins.ne_paren, derives.balanced])
        exact .inner chains (rightIH inner lexeme after rfl inside)

theorem lastTopInfix {outer inner : Category} (chains : Chains outer inner) {token : Token}
    {operator : BinaryOperator} (joins : Joins outer token operator) {left right : List Lexeme}
    {l r : Expr} {leftDepth rightDepth : Nat} (leftDerives : Derives outer left l leftDepth)
    (rightDerives : Derives inner right r rightDepth) (offset : Nat) :
    LastTopInfix outer (left ++ ⟨token, offset⟩ :: right) left ⟨token, offset⟩ right where
  split := rfl
  top := ⟨⟨operator, joins⟩, leftDerives.completes, leftDerives.balanced⟩
  last := by
    intro between later rest split top
    have inside : TopInfix outer between later :=
      top.of_append joins.leads (by simp [joins.ne_paren, leftDerives.balanced])
    obtain ⟨⟨_, laterJoins⟩, _⟩ := top
    exact chains.not_continues laterJoins (rightDerives.continues_of_top between later rest split inside)

theorem not_hasTopInfix (derives : Derives category input e depth) {operators : Category}
    (foreign : ∀ {token operator}, Joins operators token operator → ¬ Continues category token) :
    ¬ HasTopInfix operators input := by
  intro ⟨before, lexeme, after, split, top⟩
  obtain ⟨_, joins⟩ := top.1
  exact foreign joins (derives.continues_of_top before lexeme after split top)

end Derives

/-! ## Splitting -/

/-- What a list of lexemes is split into, and the tree that is put together from those of the parts,
each of them parsed before the end marker. -/
inductive Splits (marker : Lexeme) (input : List Lexeme) : Expr → Prop where
  | additive {before lexeme after operator l r} :
      LastTopInfix .sum input before lexeme after → Joins .sum lexeme.token operator →
      parseLexemes (before ++ [marker]) = .ok l → parseLexemes (after ++ [marker]) = .ok r →
      Splits marker input (.binary operator l r lexeme.offset)
  | multiplicative {before lexeme after operator l r} :
      ¬ HasTopInfix .sum input →
      LastTopInfix .product input before lexeme after → Joins .product lexeme.token operator →
      parseLexemes (before ++ [marker]) = .ok l → parseLexemes (after ++ [marker]) = .ok r →
      Splits marker input (.binary operator l r lexeme.offset)
  | signed {sign operator offset rest operand} :
      ¬ HasTopInfix .sum input → ¬ HasTopInfix .product input →
      input = ⟨sign, offset⟩ :: rest → Signs sign operator →
      parseLexemes (rest ++ [marker]) = .ok operand →
      Splits marker input (.unary operator operand offset)
  | group {opening inner closing e} :
      ¬ HasTopInfix .sum input → ¬ HasTopInfix .product input →
      input = ⟨.leftParen, opening⟩ :: (inner ++ [⟨.rightParen, closing⟩]) →
      parseLexemes (inner ++ [marker]) = .ok e → Splits marker input e
  | number {value offset} :
      ¬ HasTopInfix .sum input → ¬ HasTopInfix .product input →
      input = [⟨.number value, offset⟩] → Splits marker input (.literal value offset)

/-- An expression is split at its last top-level additive operator, without one at its last top-level
multiplicative operator, and without either after its sign or inside its parentheses, unless it is a
number. -/
theorem parseLexemes_splits {input : List Lexeme} {marker : Lexeme} {e : Expr}
    (endFree : EndFree input) (ended : marker.token = .endMarker)
    (parsed : parseLexemes (input ++ [marker]) = .ok e) : Splits marker input e := by
  obtain ⟨depth, derives, shallow⟩ := derives_of_endFree endFree ended parsed
  cases derives with
  | joined chains joins left right =>
      cases chains
      obtain ⟨leftShallow, rightShallow⟩ := Nat.max_le.mp shallow
      exact .additive (left.lastTopInfix .sums joins right _) joins
        (left.parseLexemes leftShallow ended []) (right.expression.parseLexemes rightShallow ended [])
  | single chains product =>
      cases chains
      have noSum : ¬ HasTopInfix .sum input :=
        product.not_hasTopInfix fun joins => Chains.sums.not_continues joins
      cases product with
      | joined chains joins left right =>
          cases chains
          obtain ⟨leftShallow, rightShallow⟩ := Nat.max_le.mp shallow
          exact .multiplicative noSum (left.lastTopInfix .products joins right _) joins
            (left.expression.parseLexemes leftShallow ended [])
            (right.expression.parseLexemes rightShallow ended [])
      | single chains factor =>
          cases chains
          have noProduct : ¬ HasTopInfix .product input :=
            factor.not_hasTopInfix fun joins => Chains.products.not_continues joins
          cases factor with
          | number => exact .number noSum noProduct rfl
          | signed signs operand =>
              exact .signed noSum noProduct rfl signs
                (operand.expression.parseLexemes (Nat.le_of_succ_le shallow) ended [])
          | group enclosed =>
              exact .group noSum noProduct rfl
                (enclosed.parseLexemes (Nat.le_of_succ_le shallow) ended [])
          | single chains => cases chains
          | joined chains => cases chains

/-- `8/(3-2)*-4` is split at its star: the minus signs are inside parentheses and before an operand,
and the slash is not the last operator of its kind. -/
theorem parseLexemes_splits_star :
    Splits ⟨.endMarker, 10⟩
      [⟨.number 8, 0⟩, ⟨.slash, 1⟩, ⟨.leftParen, 2⟩, ⟨.number 3, 3⟩, ⟨.minus, 4⟩, ⟨.number 2, 5⟩,
        ⟨.rightParen, 6⟩, ⟨.star, 7⟩, ⟨.minus, 8⟩, ⟨.number 4, 9⟩]
      (.binary .mul
        (.binary .div (.literal 8 0) (.binary .sub (.literal 3 3) (.literal 2 5) 4) 1)
        (.unary .neg (.literal 4 9) 8) 7) := by
  have three : Derives .sum [⟨.number 3, 3⟩] (.literal 3 3) 0 := Derives.number.expression
  have difference : Derives .sum [⟨.number 3, 3⟩, ⟨.minus, 4⟩, ⟨.number 2, 5⟩]
      (.binary .sub (.literal 3 3) (.literal 2 5) 4) 0 :=
    .joined .sums .minus three (.single .products .number)
  have eight : Derives .product [⟨.number 8, 0⟩] (.literal 8 0) 0 := .single .products .number
  have quotient : Derives .product
      [⟨.number 8, 0⟩, ⟨.slash, 1⟩, ⟨.leftParen, 2⟩, ⟨.number 3, 3⟩, ⟨.minus, 4⟩, ⟨.number 2, 5⟩,
        ⟨.rightParen, 6⟩]
      (.binary .div (.literal 8 0) (.binary .sub (.literal 3 3) (.literal 2 5) 4) 1) 1 :=
    .joined .products .slash eight (.group difference)
  have negation : Derives .factor [⟨.minus, 8⟩, ⟨.number 4, 9⟩] (.unary .neg (.literal 4 9) 8) 1 :=
    .signed .minus .number
  have whole : Derives .product _
      (.binary .mul
        (.binary .div (.literal 8 0) (.binary .sub (.literal 3 3) (.literal 2 5) 4) 1)
        (.unary .neg (.literal 4 9) 8) 7) _ := .joined .products .star quotient negation
  exact parseLexemes_splits (by simp [EndFree]) rfl
    (whole.expression.parseLexemes (by decide) rfl [])

end Calculator.Grammar
