import Calculator.Proofs.Grammar.Beginning

/-!
# Steps of the parsers

The parsers of the three categories, and what each makes of the lexeme at the head of its input. The
two chains differ in their parts and operators only, so their steps are stated for both at once.
-/

set_option autoImplicit false

namespace Calculator.Grammar

/-! ## Categories and their parsers -/

/-- The parser of a category, which reads at most `levels` prefix operators and groups inside one
another. -/
def Category.parser (levels : Nat) : Category → Parser
  | .factor => Parser.factor levels
  | .product => Parser.product (Parser.factor levels)
  | .sum => Parser.sum (Parser.factor levels)

def Category.operator? : Category → Token → Option BinaryOperator
  | .factor => fun _ => none
  | .product => Token.multiplicativeOperator?
  | .sum => Token.additiveOperator?

theorem operator?_eq_some_iff {category : Category} {token : Token} {operator : BinaryOperator} :
    category.operator? token = some operator ↔ Joins category token operator := by
  constructor
  · intro found
    cases category <;> cases token <;> cases found <;> constructor
  · intro joins
    cases joins <;> rfl

/-- The tokens with which a phrase goes on after one of its parts. -/
inductive Continues : Category → Token → Prop where
  | joins {category token operator} : Joins category token operator → Continues category token
  | inner {outer inner token} : Chains outer inner → Continues inner token → Continues outer token

/-- Whether a phrase cannot go on with the next lexeme. -/
def Category.Stops (category : Category) (next : Option Lexeme) : Prop :=
  ∀ lexeme ∈ next, ¬ Continues category lexeme.token

theorem Joins.continues {category : Category} {token : Token} {operator : BinaryOperator}
    (joins : Joins category token operator) : Continues .sum token := by
  cases joins with
  | plus => exact .joins .plus
  | minus => exact .joins .minus
  | star => exact .inner .sums (.joins .star)
  | slash => exact .inner .sums (.joins .slash)

theorem Continues.joins_some {category : Category} {token : Token}
    (continues : Continues category token) : ∃ category operator, Joins category token operator := by
  induction continues with
  | joins joins => exact ⟨_, _, joins⟩
  | inner _ _ ih => exact ih

theorem Category.stops_of_not_joins (category : Category) {next : Option Lexeme}
    (none : ∀ lexeme ∈ next, ∀ other operator, ¬ Joins other lexeme.token operator) :
    category.Stops next := by
  intro lexeme member continues
  obtain ⟨other, operator, joins⟩ := continues.joins_some
  exact none lexeme member other operator joins

theorem not_continues_factor (token : Token) : ¬ Continues .factor token := by
  intro continues
  cases continues with
  | joins joins => cases joins
  | inner chains => cases chains

theorem Chains.not_continues {outer inner : Category} (chains : Chains outer inner) {token : Token}
    {operator : BinaryOperator} (joins : Joins outer token operator) : ¬ Continues inner token := by
  intro continues
  cases chains with
  | products => exact not_continues_factor token continues
  | sums =>
      cases continues with
      | joins other => cases joins <;> cases other
      | inner chains continues =>
          cases chains
          exact not_continues_factor token continues

theorem Joins.stops_parts {outer : Category} {token : Token} {operator : BinaryOperator}
    (joins : Joins outer token operator) (offset : Nat) :
    ∀ part, Chains outer part → part.Stops (some ⟨token, offset⟩) := by
  intro part chains lexeme next
  cases next
  exact chains.not_continues joins

theorem Chains.stops {outer inner : Category} (chains : Chains outer inner) {next : Option Lexeme}
    (stops : outer.Stops next) : inner.Stops next :=
  fun lexeme member continues => stops lexeme member (.inner chains continues)

theorem Chains.stops_of_operator {outer inner : Category} (chains : Chains outer inner)
    {next : Option Lexeme} (stops : inner.Stops next)
    (none : ∀ lexeme ∈ next, outer.operator? lexeme.token = none) : outer.Stops next := by
  intro lexeme member continues
  cases continues with
  | joins joins =>
      have found := operator?_eq_some_iff.mpr joins
      rw [none lexeme member] at found
      cases found
  | inner other continues =>
      cases chains <;> cases other <;> exact stops lexeme member continues

/-! ## Steps of the parsers -/

/-- What is made of the rest of a phrase after a first part of it, whose tree is `e`. -/
def Category.resume (levels : Nat) (e : Expr) (rest : List Lexeme) : Category → Parsed
  | .factor => (.ok e, rest)
  | .product => Parser.chainFrom (Parser.factor levels) Token.multiplicativeOperator? e rest
  | .sum =>
      Parser.chainFrom (Parser.product (Parser.factor levels)) Token.additiveOperator? e rest

theorem Chains.run_eq {outer inner : Category} (chains : Chains outer inner) (levels : Nat)
    (input : List Lexeme) :
    (outer.parser levels).run input =
      match (inner.parser levels).run input with
      | (.error error, rest) => (.error error, rest)
      | (.ok left, rest) => outer.resume levels left rest := by
  cases chains <;> rfl

theorem Chains.resume_eq {outer inner : Category} (chains : Chains outer inner) (levels : Nat)
    (left : Expr) (rest : List Lexeme) :
    outer.resume levels left rest =
      Parser.chainFrom (inner.parser levels) outer.operator? left rest := by
  cases chains <;> rfl

theorem chainFrom_joined (part : Parser) {operator? : Token → Option BinaryOperator} {next : Lexeme}
    {operator : BinaryOperator} (found : operator? next.token = some operator) (left : Expr)
    (rest : List Lexeme) :
    Parser.chainFrom part operator? left (next :: rest) =
      match part.run rest with
      | (.error error, rest') => (.error error, rest')
      | (.ok right, rest') =>
          Parser.chainFrom part operator? (.binary operator left right next.offset) rest' := by
  rw [Parser.chainFrom]
  simp only [found]
  split <;> rename_i run <;> simp only [run]

theorem Chains.resume_joined {outer inner : Category} (chains : Chains outer inner) {token : Token}
    {operator : BinaryOperator} (joins : Joins outer token operator) (levels offset : Nat)
    (left : Expr) (rest : List Lexeme) :
    outer.resume levels left (⟨token, offset⟩ :: rest) =
      match (inner.parser levels).run rest with
      | (.error error, rest') => (.error error, rest')
      | (.ok right, rest') => outer.resume levels (.binary operator left right offset) rest' := by
  simp only [chains.resume_eq]
  exact chainFrom_joined (inner.parser levels) (operator?_eq_some_iff.mpr joins) left rest

theorem Chains.resume_of_stops {outer inner : Category} (chains : Chains outer inner) (levels : Nat)
    (e : Expr) {rest : List Lexeme} (stops : outer.Stops rest.head?) :
    outer.resume levels e rest = (.ok e, rest) := by
  rw [chains.resume_eq]
  cases rest with
  | nil => rw [Parser.chainFrom]
  | cons next rest =>
      rw [Parser.chainFrom]
      cases found : outer.operator? next.token with
      | none => rfl
      | some operator => exact absurd (.joins (operator?_eq_some_iff.mp found)) (stops next rfl)

theorem Category.resume_of_stops {category : Category} (levels : Nat) (e : Expr)
    {rest : List Lexeme} (stops : category.Stops rest.head?) :
    category.resume levels e rest = (.ok e, rest) := by
  cases category with
  | factor => rfl
  | product => exact Chains.products.resume_of_stops levels e stops
  | sum => exact Chains.sums.resume_of_stops levels e stops

theorem run_number (levels offset : Nat) (value : Float) (rest : List Lexeme) :
    (Parser.factor levels).run (⟨.number value, offset⟩ :: rest) =
      (.ok (.literal value offset), rest) := by
  cases levels <;> rfl

theorem factorOver_signed (inner : Parser) {sign : Token} {operator : UnaryOperator}
    (signs : Signs sign operator) (offset : Nat) (rest : List Lexeme) :
    (Parser.factorOver (some inner)).run (⟨sign, offset⟩ :: rest) =
      match inner.run rest with
      | (.error error, rest') => (.error error, rest')
      | (.ok operand, rest') => (.ok (.unary operator operand offset), rest') := by
  cases signs <;> rfl

theorem factorOver_group (inner : Parser) (offset : Nat) (rest : List Lexeme) :
    (Parser.factorOver (some inner)).run (⟨.leftParen, offset⟩ :: rest) =
      match (Parser.sum inner).run rest with
      | (.error error, rest') => (.error error, rest')
      | (.ok e, rest') => Parser.close e rest' := rfl

theorem run_signed {sign : Token} {operator : UnaryOperator} (signs : Signs sign operator)
    (levels offset : Nat) (rest : List Lexeme) :
    (Parser.factor (levels + 1)).run (⟨sign, offset⟩ :: rest) =
      match (Parser.factor levels).run rest with
      | (.error error, rest') => (.error error, rest')
      | (.ok operand, rest') => (.ok (.unary operator operand offset), rest') :=
  factorOver_signed (Parser.factor levels) signs offset rest

theorem run_group (levels offset : Nat) (rest : List Lexeme) :
    (Parser.factor (levels + 1)).run (⟨.leftParen, offset⟩ :: rest) =
      match (Category.sum.parser levels).run rest with
      | (.error error, rest') => (.error error, rest')
      | (.ok e, rest') => Parser.close e rest' :=
  factorOver_group (Parser.factor levels) offset rest

theorem close_rightParen (e : Expr) (offset : Nat) (rest : List Lexeme) :
    Parser.close e (⟨.rightParen, offset⟩ :: rest) = (.ok e, rest) := rfl

/-! ## Refusals -/

/-- The tokens that enclose what follows them one level deeper. -/
inductive Encloses : Token → Prop where
  | plus : Encloses .plus
  | minus : Encloses .minus
  | leftParen : Encloses .leftParen

theorem Encloses.proper {token : Token} (encloses : Encloses token) : token ≠ .endMarker := by
  cases encloses <;> simp

/-- The tokens with which reading can go on where `expected` is due. -/
inductive Admits : Expected → Token → Prop where
  | number {value} : Admits .operand (.number value)
  | encloses {token} : Encloses token → Admits .operand token
  | rightParen : Admits .closingParen .rightParen
  | joins {category expected token operator} :
      expected ≠ .operand → Joins category token operator → Admits expected token

/-- The error that the next lexeme causes where `expected` is due and `room` levels are left. -/
inductive Refused (room : Nat) : Expected → Option Lexeme → EvalError → Prop where
  | exhausted {expected} : Refused room expected none (.internal .tokenStreamExhausted)
  | atEnd {expected offset} :
      expected ≠ .endOfExpression →
      Refused room expected (some ⟨.endMarker, offset⟩) (.unexpectedEnd offset)
  | tooDeep {token offset} :
      room = 0 → Encloses token →
      Refused room .operand (some ⟨token, offset⟩) (.nestingTooDeep offset Parser.maxNesting)
  | misplaced {expected token offset} :
      token ≠ .endMarker → ¬ Admits expected token →
      Refused room expected (some ⟨token, offset⟩) (.unexpectedToken offset expected token)

theorem not_admits_operand {token : Token} (number : ∀ value, token ≠ .number value)
    (encloses : ¬ Encloses token) : ¬ Admits .operand token := by
  intro admits
  cases admits with
  | number => exact number _ rfl
  | encloses enclosing => exact encloses enclosing
  | joins other => exact other rfl

theorem run_of_refused {levels : Nat} {rest : List Lexeme} {error : EvalError}
    (refused : Refused levels .operand rest.head? error) :
    (Parser.factor levels).run rest = (.error error, rest) := by
  cases rest with
  | nil =>
      cases refused
      cases levels <;> rfl
  | cons next rest =>
      generalize head : (next :: rest).head? = first at refused
      cases refused with
      | exhausted => cases head
      | atEnd =>
          cases head
          cases levels <;> rfl
      | tooDeep full encloses =>
          cases head
          subst full
          cases encloses <;> rfl
      | @misplaced _ token _ proper refuses =>
          cases head
          cases token with
          | number => exact absurd .number refuses
          | plus => exact absurd (.encloses .plus) refuses
          | minus => exact absurd (.encloses .minus) refuses
          | leftParen => exact absurd (.encloses .leftParen) refuses
          | endMarker => exact absurd rfl proper
          | _ => cases levels <;> rfl

theorem close_of_refused {room : Nat} {e : Expr} {rest : List Lexeme} {error : EvalError}
    (refused : Refused room .closingParen rest.head? error) :
    Parser.close e rest = (.error error, rest) := by
  cases rest with
  | nil =>
      cases refused
      rfl
  | cons next rest =>
      generalize head : (next :: rest).head? = first at refused
      cases refused with
      | exhausted => cases head
      | atEnd =>
          cases head
          rfl
      | @misplaced _ token _ proper refuses =>
          cases head
          cases token with
          | rightParen => exact absurd .rightParen refuses
          | endMarker => exact absurd rfl proper
          | _ => rfl

theorem Refused.stops {room : Nat} {expected : Expected} {next : Option Lexeme} {error : EvalError}
    (refused : Refused room expected next error) (other : expected ≠ .operand) :
    Category.sum.Stops next := by
  intro lexeme member continues
  obtain ⟨category, operator, joins⟩ := continues.joins_some
  cases refused with
  | exhausted => cases member
  | atEnd =>
      cases member
      cases joins
  | tooDeep => exact other rfl
  | misplaced _ refuses =>
      cases member
      exact refuses (.joins other joins)

theorem Category.Stops.not_admits {lexeme : Lexeme} (stops : Category.sum.Stops (some lexeme))
    {expected : Expected} (other : expected ≠ .operand)
    (unclosed : expected = .closingParen → lexeme.token ≠ .rightParen) :
    ¬ Admits expected lexeme.token := by
  intro admits
  generalize token : lexeme.token = found at admits unclosed
  cases admits with
  | number => exact other rfl
  | encloses => exact other rfl
  | rightParen => exact unclosed rfl rfl
  | joins _ joins => exact stops lexeme rfl (token ▸ joins.continues)

end Calculator.Grammar
