import Calculator.Proofs.Grammar.Limit

/-!
# Calls of the parsers

A parser of factors calls itself only through prefix operators and parentheses. However long the
input is, no more calls of it are active at one moment than levels of nesting are left, and one more;
with room for so many, a parser that fails where its room is used up answers as the real one does.
-/

set_option autoImplicit false

namespace Calculator

namespace Parser

def failing (error : EvalError) : Parser where
  run input := (.error error, input)
  rest_suffix _ := List.suffix_rfl

/-- The factors inside `depth` prefix operators and parentheses, where no more than `budget` calls
may be active one inside another: the next one fails with `error`. -/
def budgeted (error : EvalError) : (budget depth : Nat) → Parser
  | 0, _ => failing error
  | budget + 1, depth =>
      factorOver (if depth < maxNesting then some (budgeted error budget (depth + 1)) else none)

end Parser

namespace Grammar

/-! ## Active calls -/

/-- A call of the parser of a category inside `depth` prefix operators and parentheses. -/
structure Call where
  category : Category
  depth : Nat
  input : List Lexeme

def Call.isFactor (call : Call) : Bool :=
  match call.category with
  | .factor => true
  | _ => false

/-- `Resumes part operator? rest start`: the loop of a chain that goes on at `rest` calls the parser
of its parts at `start`. -/
inductive Resumes (part : Parser) (operator? : Token → Option BinaryOperator) :
    List Lexeme → List Lexeme → Prop where
  | next {next rest operator} :
      operator? next.token = some operator → Resumes part operator? (next :: rest) rest
  | later {next rest operator right rest' start} :
      operator? next.token = some operator → part.run rest = (.ok right, rest') →
      Resumes part operator? rest' start → Resumes part operator? (next :: rest) start

/-- The calls that a call makes itself. -/
inductive Calls : Call → Call → Prop where
  | first {outer inner depth input} :
      Chains outer inner → Calls ⟨outer, depth, input⟩ ⟨inner, depth, input⟩
  | resumed {outer inner depth input left rest start} :
      Chains outer inner →
      (inner.over (Parser.factorWithin depth)).run input = (.ok left, rest) →
      Resumes (inner.over (Parser.factorWithin depth)) outer.operator? rest start →
      Calls ⟨outer, depth, input⟩ ⟨inner, depth, start⟩
  | signed {sign operator offset depth rest} :
      Signs sign operator → depth < Parser.maxNesting →
      Calls ⟨.factor, depth, ⟨sign, offset⟩ :: rest⟩ ⟨.factor, depth + 1, rest⟩
  | group {offset depth rest} :
      depth < Parser.maxNesting →
      Calls ⟨.factor, depth, ⟨.leftParen, offset⟩ :: rest⟩ ⟨.sum, depth + 1, rest⟩

/-- `Active call stack`: at some moment of the call those of `stack` are active, each made by the one
before it. -/
inductive Active : Call → List Call → Prop where
  | entered {call} : Active call [call]
  | called {call callee stack} : Calls call callee → Active callee stack → Active call (call :: stack)

def factorCalls (stack : List Call) : Nat :=
  stack.countP Call.isFactor

@[simp] theorem factorCalls_nil : factorCalls [] = 0 := rfl

@[simp] theorem factorCalls_factor (depth : Nat) (input : List Lexeme) (stack : List Call) :
    factorCalls (⟨.factor, depth, input⟩ :: stack) = factorCalls stack + 1 :=
  List.countP_cons_of_pos rfl

theorem Chains.factorCalls {outer inner : Category} (chains : Chains outer inner) (depth : Nat)
    (input : List Lexeme) (stack : List Call) :
    factorCalls (⟨outer, depth, input⟩ :: stack) = Grammar.factorCalls stack := by
  cases chains <;> exact List.countP_cons_of_neg nofun

/-- The calls that can be active above the next call of the parser of factors. -/
def Category.rank : Category → Nat
  | .factor => 0
  | .product => 1
  | .sum => 2

theorem Chains.rank {outer inner : Category} (chains : Chains outer inner) :
    outer.rank = inner.rank + 1 := by
  cases chains <;> rfl

namespace Active

variable {call : Call} {stack : List Call}

theorem factorCalls_le (active : Active call stack) :
    factorCalls stack ≤ 513 - min call.depth 512 := by
  induction active with
  | @entered call =>
      have single : factorCalls [call] ≤ 1 := List.countP_le_length
      omega
  | called calls _ ih =>
      cases calls with
      | first chains | resumed chains =>
          rw [chains.factorCalls]
          exact ih
      | signed _ room | group room =>
          simp only [factorCalls_factor, Parser.maxNesting] at ih room ⊢
          omega

theorem length_le (active : Active call stack) :
    stack.length ≤ 3 * factorCalls stack + call.category.rank := by
  induction active with
  | @entered call =>
      obtain ⟨category, depth, input⟩ := call
      cases category with
      | factor => simp [Category.rank]
      | product => simp [Chains.products.factorCalls, Category.rank]
      | sum => simp [Chains.sums.factorCalls, Category.rank]
  | called calls _ ih =>
      cases calls with
      | first chains | resumed chains =>
          simp only [chains.factorCalls, chains.rank, List.length_cons] at ih ⊢
          omega
      | signed | group =>
          simp only [factorCalls_factor, Category.rank, List.length_cons] at ih ⊢
          omega

end Active

/-! ## Budgets -/

/-- Whether more than `budget` calls of the parser of factors are active at some moment. -/
def Exceeds (budget : Nat) (call : Call) : Prop :=
  ∃ stack, Active call stack ∧ budget < factorCalls stack

theorem exceeds_zero (depth : Nat) (input : List Lexeme) : Exceeds 0 ⟨.factor, depth, input⟩ :=
  ⟨_, .entered, by simp⟩

theorem exceeds_succ_iff {budget depth : Nat} {input : List Lexeme} :
    Exceeds (budget + 1) ⟨.factor, depth, input⟩ ↔
      ∃ callee, Calls ⟨.factor, depth, input⟩ callee ∧ Exceeds budget callee := by
  constructor
  · rintro ⟨stack, active, more⟩
    cases active with
    | entered => simp at more
    | called calls active => exact ⟨_, calls, _, active, by simpa using more⟩
  · rintro ⟨callee, calls, stack, active, more⟩
    exact ⟨_, .called calls active, by simpa using more⟩

theorem Chains.exceeds_iff {outer inner : Category} (chains : Chains outer inner)
    {budget depth : Nat} {input : List Lexeme} :
    Exceeds budget ⟨outer, depth, input⟩ ↔
      ∃ callee, Calls ⟨outer, depth, input⟩ callee ∧ Exceeds budget callee := by
  constructor
  · rintro ⟨stack, active, more⟩
    cases active with
    | entered => simp [chains.factorCalls] at more
    | called calls active => exact ⟨_, calls, _, active, by rwa [chains.factorCalls] at more⟩
  · rintro ⟨callee, calls, stack, active, more⟩
    exact ⟨_, .called calls active, by rwa [chains.factorCalls]⟩

/-- How a limited run stands to the actual one: it fails with `error` if the limit is exceeded, and is
the same otherwise. -/
def Spends (exceeded : Prop) (error : EvalError) (actual limited : Parsed) : Prop :=
  exceeded ∧ (∃ rest, limited = (.error error, rest)) ∨ ¬ exceeded ∧ limited = actual

/-- What is read after an expression, and an error as it is. -/
def andThen (next : Expr → List Lexeme → Parsed) : Parsed → Parsed
  | (.error error, rest) => (.error error, rest)
  | (.ok e, rest) => next e rest

theorem Spends.followed {exceeded : Prop} {error : EvalError} {actual limited : Parsed}
    (spends : Spends exceeded error actual limited) (next : Expr → List Lexeme → Parsed) :
    Spends exceeded error (andThen next actual) (andThen next limited) := by
  rcases spends with ⟨more, rest, failed⟩ | ⟨within, same⟩
  · refine .inl ⟨more, rest, ?_⟩
    rw [failed]
    rfl
  · exact .inr ⟨within, by rw [same]⟩

section Chain

variable {actual limited : Parser} {exceeds : List Lexeme → Prop} {error : EvalError}
  (parts : ∀ input, Spends (exceeds input) error (actual.run input) (limited.run input))
  (operator? : Token → Option BinaryOperator)

include parts

theorem chainFrom_spends (left : Expr) (rest : List Lexeme) :
    Spends (∃ start, Resumes actual operator? rest start ∧ exceeds start) error
      (Parser.chainFrom actual operator? left rest)
      (Parser.chainFrom limited operator? left rest) := by
  fun_induction Parser.chainFrom actual operator? left rest with
  | case1 left =>
      refine .inr ⟨?_, by rw [Parser.chainFrom]⟩
      rintro ⟨start, resumes, _⟩
      cases resumes
  | case2 left next rest none =>
      refine .inr ⟨?_, by rw [Parser.chainFrom]; simp only [none]⟩
      rintro ⟨start, resumes, _⟩
      cases resumes <;> simp_all
  | case3 left next rest operator found failure rest' run =>
      rw [chainFrom_joined limited found]
      rcases parts rest with ⟨exceeded, rest', failed⟩ | ⟨within, same⟩
      · rw [failed]
        exact .inl ⟨⟨rest, .next found, exceeded⟩, rest', rfl⟩
      · rw [same, run]
        refine .inr ⟨?_, rfl⟩
        rintro ⟨start, resumes, exceeded⟩
        cases resumes with
        | next => exact within exceeded
        | later _ other => rw [run] at other; cases other
  | case4 left next rest operator found right rest' run ih =>
      rw [chainFrom_joined limited found]
      rcases parts rest with ⟨exceeded, rest', failed⟩ | ⟨within, same⟩
      · rw [failed]
        exact .inl ⟨⟨rest, .next found, exceeded⟩, rest', rfl⟩
      · rw [same, run]
        rcases ih with ⟨⟨start, resumes, exceeded⟩, failed⟩ | ⟨none, unchanged⟩
        · exact .inl ⟨⟨start, .later found run resumes, exceeded⟩, failed⟩
        · refine .inr ⟨?_, unchanged⟩
          rintro ⟨start, resumes, exceeded⟩
          cases resumes with
          | next => exact within exceeded
          | later _ other resumes =>
              rw [run] at other
              cases other
              exact none ⟨start, resumes, exceeded⟩

end Chain

theorem Chains.calls_iff {outer inner : Category} (chains : Chains outer inner) {depth : Nat}
    {input : List Lexeme} {callee : Call} :
    Calls ⟨outer, depth, input⟩ callee ↔
      callee = ⟨inner, depth, input⟩ ∨
        ∃ left rest start, (inner.over (Parser.factorWithin depth)).run input = (.ok left, rest) ∧
          Resumes (inner.over (Parser.factorWithin depth)) outer.operator? rest start ∧
          callee = ⟨inner, depth, start⟩ := by
  constructor
  · intro calls
    cases chains <;> cases calls with
    | first other =>
        cases other
        exact .inl rfl
    | resumed other run resumes =>
        cases other
        exact .inr ⟨_, _, _, run, resumes, rfl⟩
  · rintro (rfl | ⟨left, rest, start, run, resumes, rfl⟩)
    · exact .first chains
    · exact .resumed chains run resumes

variable {error : EvalError} {budget depth : Nat}

/-- The parser of a category with a budget, and how it stands to the one without. -/
def Category.Obeys (category : Category) (error : EvalError) (budget depth : Nat) : Prop :=
  ∀ input, Spends (Exceeds budget ⟨category, depth, input⟩) error
    ((category.over (Parser.factorWithin depth)).run input)
    ((category.over (Parser.budgeted error budget depth)).run input)

theorem Chains.obeys {outer inner : Category} (chains : Chains outer inner)
    (parts : inner.Obeys error budget depth) : outer.Obeys error budget depth := by
  intro input
  have loop := chainFrom_spends parts outer.operator?
  have unfolded (factor : Parser) : (outer.over factor).run input =
      andThen (Parser.chainFrom (inner.over factor) outer.operator?)
        ((inner.over factor).run input) := by
    cases chains <;> rfl
  rw [unfolded, unfolded, chains.exceeds_iff]
  rcases parts input with ⟨exceeded, rest, failed⟩ | ⟨within, same⟩
  · rw [failed]
    exact .inl ⟨⟨_, .first chains, exceeded⟩, rest, rfl⟩
  · rw [same]
    rcases run : (inner.over (Parser.factorWithin depth)).run input with ⟨_ | left, rest⟩
    · refine .inr ⟨?_, rfl⟩
      rintro ⟨callee, calls, exceeded⟩
      rcases chains.calls_iff.mp calls with rfl | ⟨left, rest', start, other, _⟩
      · exact within exceeded
      · rw [run] at other
        cases other
    · rcases loop left rest with ⟨⟨start, resumes, exceeded⟩, failed⟩ | ⟨none, unchanged⟩
      · exact .inl ⟨⟨_, .resumed chains run resumes, exceeded⟩, failed⟩
      · refine .inr ⟨?_, unchanged⟩
        rintro ⟨callee, calls, exceeded⟩
        rcases chains.calls_iff.mp calls with rfl | ⟨left, rest', start, other, resumes, rfl⟩
        · exact within exceeded
        · rw [run] at other
          cases other
          exact none ⟨start, resumes, exceeded⟩

theorem exceeds_signed {sign : Token} {operator : UnaryOperator} (signs : Signs sign operator)
    (room : depth < Parser.maxNesting) (offset : Nat) (rest : List Lexeme) :
    Exceeds (budget + 1) ⟨.factor, depth, ⟨sign, offset⟩ :: rest⟩ ↔
      Exceeds budget ⟨.factor, depth + 1, rest⟩ := by
  rw [exceeds_succ_iff]
  constructor
  · rintro ⟨callee, calls, exceeded⟩
    cases calls with
    | first chains | resumed chains => cases chains
    | signed => exact exceeded
    | group => cases signs
  · exact fun exceeded => ⟨_, .signed signs room, exceeded⟩

theorem exceeds_group (room : depth < Parser.maxNesting) (offset : Nat) (rest : List Lexeme) :
    Exceeds (budget + 1) ⟨.factor, depth, ⟨.leftParen, offset⟩ :: rest⟩ ↔
      Exceeds budget ⟨.sum, depth + 1, rest⟩ := by
  rw [exceeds_succ_iff]
  constructor
  · rintro ⟨callee, calls, exceeded⟩
    cases calls with
    | first chains | resumed chains => cases chains
    | signed signs => cases signs
    | group => exact exceeded
  · exact fun exceeded => ⟨_, .group room, exceeded⟩

/-- Without levels left, or in front of anything but a prefix operator or a parenthesis, the parser of
factors calls no other. -/
theorem not_exceeds_succ {input : List Lexeme}
    (alone : depth < Parser.maxNesting → ∀ next ∈ input.head?, ¬ Encloses next.token) :
    ¬ Exceeds (budget + 1) ⟨.factor, depth, input⟩ := by
  rw [exceeds_succ_iff]
  rintro ⟨callee, calls, _⟩
  cases calls with
  | first chains | resumed chains => cases chains
  | signed signs room => exact alone room _ rfl signs.encloses
  | group room => exact alone room _ rfl .leftParen

theorem factorOver_of_not_encloses (inner other : Option Parser) {input : List Lexeme}
    (encloses : ∀ next ∈ input.head?, ¬ Encloses next.token) :
    (Parser.factorOver inner).run input = (Parser.factorOver other).run input := by
  cases input with
  | nil => rfl
  | cons next rest =>
      have first := encloses next rfl
      obtain ⟨token, offset⟩ := next
      cases token with
      | plus => exact absurd .plus first
      | minus => exact absurd .minus first
      | leftParen => exact absurd .leftParen first
      | _ => rfl

theorem spends_signed {sign : Token} {operator : UnaryOperator} (signs : Signs sign operator)
    (deeper : Category.factor.Obeys error budget (depth + 1)) (offset : Nat) (rest : List Lexeme) :
    Spends (Exceeds budget ⟨.factor, depth + 1, rest⟩) error
      ((Parser.factorOver (some (Parser.factorWithin (depth + 1)))).run (⟨sign, offset⟩ :: rest))
      ((Parser.factorOver (some (Parser.budgeted error budget (depth + 1)))).run
        (⟨sign, offset⟩ :: rest)) := by
  rw [factorOver_signed _ signs, factorOver_signed _ signs]
  exact (deeper rest).followed fun operand rest' => (.ok (.unary operator operand offset), rest')

theorem spends_group (deeper : Category.sum.Obeys error budget (depth + 1)) (offset : Nat)
    (rest : List Lexeme) :
    Spends (Exceeds budget ⟨.sum, depth + 1, rest⟩) error
      ((Parser.factorOver (some (Parser.factorWithin (depth + 1)))).run
        (⟨.leftParen, offset⟩ :: rest))
      ((Parser.factorOver (some (Parser.budgeted error budget (depth + 1)))).run
        (⟨.leftParen, offset⟩ :: rest)) := by
  rw [factorOver_group, factorOver_group]
  exact (deeper rest).followed Parser.close

theorem factor_obeys (error : EvalError) (budget depth : Nat) :
    Category.factor.Obeys error budget depth := by
  -- On the budget: a call inside has one less, and its depth is one more.
  induction budget generalizing depth with
  | zero => exact fun input => .inl ⟨exceeds_zero depth input, input, rfl⟩
  | succ budget ih =>
      intro input
      have sumDeeper : Category.sum.Obeys error budget (depth + 1) :=
        Chains.sums.obeys (Chains.products.obeys (ih (depth + 1)))
      change Spends _ error ((Parser.factorWithin depth).run input)
        ((Parser.budgeted error (budget + 1) depth).run input)
      rw [Parser.factorWithin_eq_factorOver, Parser.budgeted]
      by_cases room : depth < Parser.maxNesting
      · rw [if_pos room, if_pos room]
        by_cases opens : ∃ next ∈ input.head?, Encloses next.token
        · obtain ⟨⟨token, offset⟩, head, encloses⟩ := opens
          obtain ⟨rest, rfl⟩ := List.head?_eq_some_iff.mp head
          cases encloses with
          | plus =>
              rw [exceeds_signed .plus room]
              exact spends_signed .plus (ih (depth + 1)) offset rest
          | minus =>
              rw [exceeds_signed .minus room]
              exact spends_signed .minus (ih (depth + 1)) offset rest
          | leftParen =>
              rw [exceeds_group room]
              exact spends_group sumDeeper offset rest
        · have alone : ∀ next ∈ input.head?, ¬ Encloses next.token :=
            fun next head encloses => opens ⟨next, head, encloses⟩
          exact .inr ⟨not_exceeds_succ fun _ => alone, factorOver_of_not_encloses _ _ alone⟩
      · rw [if_neg room, if_neg room]
        exact .inr ⟨not_exceeds_succ fun other => absurd other room, rfl⟩

theorem Category.obeys (category : Category) (error : EvalError) (budget depth : Nat) :
    category.Obeys error budget depth := by
  have factors := factor_obeys error budget depth
  cases category with
  | factor => exact factors
  | product => exact Chains.products.obeys factors
  | sum => exact Chains.sums.obeys (Chains.products.obeys factors)

/-- At no moment of a run inside `depth` others are more than `513 - min depth 512` calls of the parser
of factors active, and no more than two others lie between two of them. So a parser with a budget for
this many answers as the one without. Any budget is used up just where more calls are active, and
chains of operands of any length are read. -/
theorem active_calls_bounded :
    (∀ (category : Category) (depth : Nat) (input : List Lexeme) (stack : List Call),
      Active ⟨category, depth, input⟩ stack →
      factorCalls stack ≤ 513 - min depth 512 ∧ stack.length ≤ 3 * factorCalls stack + 2) ∧
    (∀ (category : Category) (error : EvalError) (depth : Nat) (input : List Lexeme),
      (category.over (Parser.budgeted error (513 - min depth 512) depth)).run input =
        (category.over (Parser.factorWithin depth)).run input) ∧
    (∀ (category : Category) (error : EvalError) (budget depth : Nat) (input : List Lexeme),
      (Exceeds budget ⟨category, depth, input⟩ →
        ((category.over (Parser.budgeted error budget depth)).run input).1 = .error error) ∧
      (¬ Exceeds budget ⟨category, depth, input⟩ →
        (category.over (Parser.budgeted error budget depth)).run input =
          (category.over (Parser.factorWithin depth)).run input)) ∧
    ∀ (category : Category) (depth : Nat) (chain rest : List Lexeme),
      BinaryChain category (512 - depth) chain → category.Stops rest.head? →
      ∃ e, (category.over (Parser.factorWithin depth)).run (chain ++ rest) = (.ok e, rest) := by
  refine ⟨?_, ?_, ?_, fun _ _ _ _ fitting stops => fitting.run_factorWithin stops⟩
  · intro category depth input stack active
    have rank : category.rank ≤ 2 := by cases category <;> decide
    have length : stack.length ≤ 3 * factorCalls stack + category.rank := active.length_le
    exact ⟨active.factorCalls_le, by omega⟩
  · intro category error depth input
    rcases category.obeys error (513 - min depth 512) depth input with ⟨exceeded, _⟩ | ⟨_, same⟩
    · obtain ⟨stack, active, more⟩ := exceeded
      exact absurd active.factorCalls_le (Nat.not_le_of_lt more)
    · exact same
  · intro category error budget depth input
    rcases category.obeys error budget depth input with
      ⟨exceeded, rest, failed⟩ | ⟨within, same⟩
    · exact ⟨fun _ => by rw [failed], fun within => absurd exceeded within⟩
    · exact ⟨fun exceeded => absurd exceeded within, fun _ => same⟩

/-- Inside 511 others, the two calls that are allowed for `-2` are made, a budget of one is used up by
them and a budget of two is not; and `2 * 2` is read. -/
theorem active_calls_bounded_sign :
    (∃ stack, Active ⟨.sum, 511, [⟨.minus, 0⟩, ⟨.number 2, 1⟩]⟩ stack ∧ factorCalls stack = 2 ∧
      factorCalls stack ≤ 513 - min 511 512 ∧ stack.length ≤ 3 * factorCalls stack + 2) ∧
    ((Category.sum.over (Parser.budgeted .emptyExpression 1 511)).run
      [⟨.minus, 0⟩, ⟨.number 2, 1⟩]).1 = .error .emptyExpression ∧
    (Category.sum.over (Parser.budgeted .emptyExpression 2 511)).run
      [⟨.minus, 0⟩, ⟨.number 2, 1⟩] =
        (Category.sum.over (Parser.factorWithin 511)).run [⟨.minus, 0⟩, ⟨.number 2, 1⟩] ∧
    ∃ e, (Category.sum.over (Parser.factorWithin 511)).run
      ([⟨.number 2, 0⟩, ⟨.star, 1⟩, ⟨.number 2, 2⟩] ++ []) = (.ok e, []) := by
  obtain ⟨bounded, _, budgets, chains⟩ := active_calls_bounded
  have room : 511 < Parser.maxNesting := by decide
  have active : Active ⟨.sum, 511, [⟨.minus, 0⟩, ⟨.number 2, 1⟩]⟩
      [⟨.sum, 511, _⟩, ⟨.product, 511, _⟩, ⟨.factor, 511, _⟩, ⟨.factor, 512, _⟩] :=
    .called (.first .sums) (.called (.first .products) (.called (.signed .minus room) .entered))
  have within : ¬ Exceeds 2 ⟨.sum, 511, [⟨.minus, 0⟩, ⟨.number 2, 1⟩]⟩ := by
    rintro ⟨stack, active, more⟩
    exact absurd (bounded _ _ _ stack active).1 (Nat.not_le_of_lt more)
  have product : BinaryChain .sum (512 - 511) [⟨.number 2, 0⟩, ⟨.star, 1⟩, ⟨.number 2, 2⟩] :=
    .joined (.operand .number (Nat.zero_le 1)) (.inner .sums (.joins .star)) .number (Nat.zero_le 1)
  exact ⟨⟨_, active, rfl, bounded _ _ _ _ active⟩,
    (budgets .sum .emptyExpression 1 511 _).1 ⟨_, active, Nat.lt_add_one 1⟩,
    (budgets .sum .emptyExpression 2 511 _).2 within, chains .sum 511 _ [] product nofun⟩

end Grammar

end Calculator
