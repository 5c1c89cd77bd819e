import Calculator.Proofs.Grammar.Nesting

/-!
# The nesting limit

A parser without any limit beside those with one. The limit never changes an answer but to cut a run
short, at the first prefix operator or parenthesis that is enclosed by as many as are allowed.
-/

set_option autoImplicit false

namespace Calculator

/-- The factors without a limit. Every level takes a lexeme, so as many levels as there are lexemes
never run out; `unlimited_run_eq` says that none of them is refused. -/
def Parser.unlimited : Parser where
  run input := (factor input.length).run input
  rest_suffix input := (factor input.length).rest_suffix input

theorem Parser.factorWithin_eq_factorOver (depth : Nat) :
    factorWithin depth =
      factorOver (if depth < maxNesting then some (factorWithin (depth + 1)) else none) := by
  by_cases room : depth < maxNesting
  · have levels : maxNesting - depth = maxNesting - (depth + 1) + 1 := by omega
    rw [if_pos room, factorWithin, levels]
    rfl
  · have levels : maxNesting - depth = 0 := by omega
    rw [if_neg room, factorWithin, levels]
    rfl

namespace Grammar

/-- The parser of a category over a parser of factors. -/
def Category.over (factor : Parser) : Category → Parser
  | .factor => factor
  | .product => Parser.product factor
  | .sum => Parser.sum factor

theorem Category.over_factor (category : Category) (levels : Nat) :
    category.over (Parser.factor levels) = category.parser levels := by
  cases category <;> rfl

theorem Category.over_factorWithin (category : Category) (depth : Nat) :
    category.over (Parser.factorWithin depth) = category.parser (512 - depth) :=
  category.over_factor (512 - depth)

variable {category : Category} {levels : Nat}

/-! ## More levels -/

/-- Whether a run was cut short by the limit. -/
def Cut (result : Except EvalError Expr) : Prop :=
  ∃ position limit, result = .error (.nestingTooDeep position limit)

theorem Refused.change_room {room other : Nat} {expected : Expected} {next : Option Lexeme}
    {error : EvalError} (refused : Refused room expected next error) (uncut : ¬ Cut (.error error)) :
    Refused other expected next error := by
  cases refused with
  | exhausted => exact .exhausted
  | atEnd within => exact .atEnd within
  | tooDeep => exact absurd ⟨_, _, rfl⟩ uncut
  | misplaced proper refuses => exact .misplaced proper refuses

theorem Outcome.deepen {input : List Lexeme} {next : Option Lexeme}
    {result : Except EvalError Expr} (outcome : Outcome category levels input next result)
    (uncut : ¬ Cut result) (more : Nat) : Outcome category (levels + more) input next result := by
  cases outcome with
  | read derives shallow stops => exact .read derives (Nat.le_add_right_of_le shallow) stops
  | refused begun refused => exact .refused (begun.deepen more) (refused.change_room uncut)

theorem run_of_le {fewer : Nat} (le : fewer ≤ levels) {input : List Lexeme}
    (uncut : ¬ Cut ((category.parser fewer).run input).1) :
    (category.parser levels).run input = (category.parser fewer).run input := by
  obtain ⟨more, rfl⟩ := Nat.exists_eq_add_of_le le
  rcases run : (category.parser fewer).run input with ⟨result, rest⟩
  rw [run] at uncut
  obtain ⟨consumed, split, outcome⟩ := run_iff.mp run
  exact run_iff.mpr ⟨consumed, split, outcome.deepen uncut more⟩

theorem not_cut_of_length_le {input : List Lexeme} (long : input.length ≤ levels) :
    ¬ Cut ((category.parser levels).run input).1 := by
  intro ⟨position, limit, cut⟩
  rcases run : (category.parser levels).run input with ⟨result, rest⟩
  rw [run] at cut
  subst cut
  obtain ⟨consumed, rfl, outcome⟩ := run_iff.mp run
  cases outcome with
  | refused begun refused =>
      generalize following : rest.head? = next at refused
      cases refused with
      | tooDeep full encloses =>
          -- As many lexemes as there are levels stand in front of the refused one.
          obtain ⟨count, enclosed, same⟩ := begun.enclosedBy rfl
          have short := enclosed.count_le_length
          obtain ⟨tail, rfl⟩ := List.head?_eq_some_iff.mp following
          simp only [List.length_append, List.length_cons] at long
          omega

/-! ## The unlimited parser -/

theorem chainFrom_congr {first second : Parser} {operator? : Token → Option BinaryOperator}
    {bound : Nat} (same : ∀ input, input.length ≤ bound → first.run input = second.run input)
    (left : Expr) (input : List Lexeme) (short : input.length ≤ bound) :
    Parser.chainFrom first operator? left input = Parser.chainFrom second operator? left input := by
  fun_induction Parser.chainFrom first operator? left input with
  | case1 left => rw [Parser.chainFrom]
  | case2 left next rest none =>
      rw [Parser.chainFrom]
      simp only [none]
  | case3 left next rest operator found error rest' run =>
      rw [same rest (Nat.le_of_succ_le short)] at run
      rw [chainFrom_joined second found, run]
  | case4 left next rest operator found right rest' run ih =>
      have shorter : rest'.length ≤ rest.length := by
        simpa [run] using (first.rest_suffix rest).length_le
      have within : rest'.length ≤ bound :=
        Nat.le_trans shorter (Nat.le_of_succ_le short)
      rw [same rest (Nat.le_of_succ_le short)] at run
      rw [chainFrom_joined second found, run]
      exact ih within

theorem chain_congr {first second : Parser} {operator? : Token → Option BinaryOperator}
    {bound : Nat} (same : ∀ input, input.length ≤ bound → first.run input = second.run input)
    (input : List Lexeme) (short : input.length ≤ bound) :
    (Parser.chain first operator?).run input = (Parser.chain second operator?).run input := by
  have shorter := (second.rest_suffix input).length_le
  simp only [Parser.chain, same input short]
  rcases run : second.run input with ⟨result, rest⟩
  rw [run] at shorter
  cases result with
  | error error => rfl
  | ok left => exact chainFrom_congr same left rest (Nat.le_trans shorter short)

theorem over_unlimited {input : List Lexeme} (long : input.length ≤ levels) :
    (category.over Parser.unlimited).run input = (category.parser levels).run input := by
  have factors : ∀ part : List Lexeme, part.length ≤ levels →
      Parser.unlimited.run part = (Parser.factor levels).run part := by
    intro part short
    have uncut : ¬ Cut ((Category.factor.parser part.length).run part).1 :=
      not_cut_of_length_le (Nat.le_refl _)
    exact (run_of_le short uncut).symm
  cases category with
  | factor => exact factors input long
  | product => exact chain_congr factors input long
  | sum => exact chain_congr (chain_congr factors) input long

/-- The unlimited parser is the parser of factors whose nesting is never refused. -/
theorem unlimited_run_eq (input : List Lexeme) :
    Parser.unlimited.run input = (Parser.factorOver (some Parser.unlimited)).run input := by
  cases input with
  | nil => rfl
  | cons next rest =>
      have enclosed : (Parser.sum Parser.unlimited).run rest =
          (Parser.sum (Parser.factor rest.length)).run rest := by
        change (Category.sum.over Parser.unlimited).run rest = _
        exact over_unlimited (Nat.le_refl _)
      change Parser.factorAt (some (Parser.factor rest.length)) next rest =
        Parser.factorAt (some Parser.unlimited) next rest
      simp only [Parser.factorAt, enclosed]
      rfl

theorem not_cut_unlimited (category : Category) (input : List Lexeme) :
    ¬ Cut ((category.over Parser.unlimited).run input).1 := by
  rw [over_unlimited (Nat.le_refl _)]
  exact not_cut_of_length_le (Nat.le_refl _)

/-! ## What the limit does to a run -/

theorem run_lower {more : Nat} {input rest : List Lexeme} {result : Except EvalError Expr}
    (run : (category.parser more).run input = (result, rest)) (uncut : ¬ Cut result) (levels : Nat) :
    ∃ consumed, input = consumed ++ rest ∧
      (Fits category levels consumed ∧ (category.parser levels).run input = (result, rest) ∨
        ∃ before opening after, Full category levels consumed before opening after) := by
  obtain ⟨consumed, split, outcome⟩ := run_iff.mp run
  refine ⟨consumed, split, ?_⟩
  cases outcome with
  | @read e depth derives _ stops =>
      by_cases shallow : depth ≤ levels
      · have whole : Derives category (consumed ++ []) e depth := by simpa using derives
        exact .inl ⟨whole.fits shallow, run_iff.mpr ⟨consumed, split, .read derives shallow stops⟩⟩
      · exact .inr (derives.exists_full levels (Nat.lt_of_not_le shallow))
  | refused begun refused =>
      rcases begun.lower levels with ⟨left, lowered, _⟩ | full
      · exact .inl ⟨lowered.fits,
          run_iff.mpr ⟨consumed, split, .refused lowered (refused.change_room uncut)⟩⟩
      · exact .inr full

theorem run_limited (category : Category) (levels : Nat) (input : List Lexeme) :
    ∃ consumed, input = consumed ++ ((category.over Parser.unlimited).run input).2 ∧
      (Fits category levels consumed →
        (category.parser levels).run input = (category.over Parser.unlimited).run input) ∧
      (¬ Fits category levels consumed → ∃ before opening after,
        FirstBeyond category levels consumed before opening after ∧
        (category.parser levels).run input =
          (.error (.nestingTooDeep opening.offset 512),
            opening :: (after ++ ((category.over Parser.unlimited).run input).2))) := by
  have uncut := not_cut_unlimited category input
  rcases run : (category.over Parser.unlimited).run input with ⟨result, rest⟩
  rw [run] at uncut
  rw [over_unlimited (Nat.le_refl _)] at run
  obtain ⟨consumed, split, outcome⟩ := run_lower run uncut levels
  refine ⟨consumed, split, ?_⟩
  rcases outcome with ⟨fits, same⟩ | ⟨before, opening, after, full⟩
  · exact ⟨fun _ => same, fun beyond => absurd fits beyond⟩
  · obtain ⟨count, enclosed, beyond⟩ := full.firstBeyond.beyond
    have deep : ¬ Fits category levels consumed := fun fits =>
      Nat.not_lt_of_le beyond (fits before opening after count full.split full.encloses enclosed)
    refine ⟨fun fits => absurd fits deep, fun _ => ⟨before, opening, after, full.firstBeyond, ?_⟩⟩
    rw [split]
    exact full.run rest

/-! ## Chains of operands -/

/-- `BinaryChain category levels input`: operands joined by infix operators that can stand in a phrase
of the category, each operand with at most `levels` levels of its own. -/
inductive BinaryChain (category : Category) (levels : Nat) : List Lexeme → Prop where
  | operand {input e depth} :
      Derives .factor input e depth → depth ≤ levels → BinaryChain category levels input
  | joined {left token offset right r depth} :
      BinaryChain category levels left → Continues category token →
      Derives .factor right r depth → depth ≤ levels →
      BinaryChain category levels (left ++ ⟨token, offset⟩ :: right)

theorem Derives.join_product {left right : List Lexeme} {l r : Expr} {token : Token}
    {operator : BinaryOperator} {leftDepth rightDepth : Nat} (offset : Nat)
    (leftDerives : Derives .sum left l leftDepth) (leftShallow : leftDepth ≤ levels)
    (joins : Joins .product token operator) (rightDerives : Derives .factor right r rightDepth)
    (rightShallow : rightDepth ≤ levels) :
    ∃ e depth, Derives .sum (left ++ ⟨token, offset⟩ :: right) e depth ∧ depth ≤ levels := by
  cases leftDerives with
  | single chains product =>
      cases chains
      exact ⟨_, _, .single .sums (.joined .products joins product rightDerives),
        Nat.max_le.mpr ⟨leftShallow, rightShallow⟩⟩
  | @joined _ _ sign _ signOffset before last _ _ _ _ chains signJoins beforeDerives lastDerives =>
      cases chains
      obtain ⟨beforeShallow, lastShallow⟩ := Nat.max_le.mp leftShallow
      rw [List.append_assoc, List.cons_append]
      exact ⟨_, _, .joined .sums signJoins beforeDerives
          (.joined .products joins lastDerives rightDerives),
        Nat.max_le.mpr ⟨beforeShallow, Nat.max_le.mpr ⟨lastShallow, rightShallow⟩⟩⟩

theorem BinaryChain.derives {input : List Lexeme} (chain : BinaryChain category levels input) :
    ∃ e depth, Derives category input e depth ∧ depth ≤ levels := by
  induction chain with
  | operand derives shallow => exact ⟨_, _, derives.of_factor category, shallow⟩
  | @joined left token offset right r depth _ continues factor shallow ih =>
      obtain ⟨l, leftDepth, leftDerives, leftShallow⟩ := ih
      cases continues with
      | joins joins =>
          cases category with
          | factor => cases joins
          | product => exact ⟨_, _, .joined .products joins leftDerives factor,
              Nat.max_le.mpr ⟨leftShallow, shallow⟩⟩
          | sum => exact ⟨_, _, .joined .sums joins leftDerives (.single .products factor),
              Nat.max_le.mpr ⟨leftShallow, shallow⟩⟩
      | inner chains continues =>
          -- A multiplicative operator in a sum goes on with the last product.
          cases chains with
          | products => exact absurd continues (not_continues_factor token)
          | sums =>
              cases continues with
              | joins joins => exact leftDerives.join_product offset leftShallow joins factor shallow
              | inner chains continues =>
                  cases chains
                  exact absurd continues (not_continues_factor token)

theorem BinaryChain.run {input rest : List Lexeme} (chain : BinaryChain category levels input)
    (stops : category.Stops rest.head?) :
    ∃ e, (category.parser levels).run (input ++ rest) = (.ok e, rest) := by
  obtain ⟨e, depth, derives, shallow⟩ := chain.derives
  exact ⟨e, derives.run_of_stops shallow stops⟩

theorem BinaryChain.run_factorWithin {depth : Nat} {input rest : List Lexeme}
    (chain : BinaryChain category (512 - depth) input) (stops : category.Stops rest.head?) :
    ∃ e, (category.over (Parser.factorWithin depth)).run (input ++ rest) = (.ok e, rest) := by
  rw [category.over_factorWithin]
  exact chain.run stops

/-! ## Depths as words -/

/-- The depth of what is enclosed is one more as long as it is allowed, and no word overflows. -/
theorem factorWithin_eq (depth : UInt64) :
    (512 ≤ depth → Parser.factorWithin depth.toNat = Parser.factorOver none) ∧
    (depth < 512 → (depth + 1).toNat = depth.toNat + 1 ∧
      Parser.factorWithin depth.toNat =
        Parser.factorOver (some (Parser.factorWithin (depth + 1).toNat))) := by
  constructor
  · intro full
    have none : ¬ depth.toNat < Parser.maxNesting := Nat.not_lt_of_le full
    rw [Parser.factorWithin_eq_factorOver, if_neg none]
  · intro room
    have bound : depth.toNat < Parser.maxNesting := room
    have next : (depth + 1).toNat = depth.toNat + 1 := by
      rw [UInt64.toNat_add]
      exact Nat.mod_eq_of_lt (by simp [Parser.maxNesting] at bound ⊢; omega)
    refine ⟨next, ?_⟩
    rw [next, Parser.factorWithin_eq_factorOver, if_pos bound]

/-- At every depth a run with the limit is the run without it as long as every prefix operator and
parenthesis that this takes fits, and else stops in front of the first that does not. So no chain of
fitting operands is too long, and what is read at some depth is read alike at every smaller one. -/
theorem limit_only_cuts :
    (∀ input, Parser.unlimited.run input =
      (Parser.factorOver (some Parser.unlimited)).run input) ∧
    (∀ (category : Category) (before : List Lexeme) (count other : Nat),
      EnclosedBy category before count → EnclosedBy category before other → count = other) ∧
    (∀ (category : Category) (depth : Nat) (input : List Lexeme),
      ∃ consumed, input = consumed ++ ((category.over Parser.unlimited).run input).2 ∧
        (Fits category (512 - depth) consumed →
          (category.over (Parser.factorWithin depth)).run input =
            (category.over Parser.unlimited).run input) ∧
        (¬ Fits category (512 - depth) consumed → ∃ before opening after,
          FirstBeyond category (512 - depth) consumed before opening after ∧
          (category.over (Parser.factorWithin depth)).run input =
            (.error (.nestingTooDeep opening.offset 512),
              opening :: (after ++ ((category.over Parser.unlimited).run input).2)))) ∧
    (∀ (category : Category) (depth : Nat) (chain rest : List Lexeme),
      BinaryChain category (512 - depth) chain → category.Stops rest.head? →
      ∃ e, (category.over (Parser.factorWithin depth)).run (chain ++ rest) = (.ok e, rest)) ∧
    (∀ (category : Category) (depth less : Nat) (input : List Lexeme), less ≤ depth →
      ¬ Cut ((category.over (Parser.factorWithin depth)).run input).1 →
      (category.over (Parser.factorWithin less)).run input =
        (category.over (Parser.factorWithin depth)).run input) ∧
    ∀ depth : UInt64,
      (512 ≤ depth → Parser.factorWithin depth.toNat = Parser.factorOver none) ∧
      (depth < 512 → (depth + 1).toNat = depth.toNat + 1 ∧
        Parser.factorWithin depth.toNat =
          Parser.factorOver (some (Parser.factorWithin (depth + 1).toNat))) := by
  refine ⟨unlimited_run_eq, fun _ _ _ _ enclosed other => enclosed.unique other, ?_,
    fun _ _ _ _ fitting stops => fitting.run_factorWithin stops, ?_, factorWithin_eq⟩
  · intro category depth input
    rw [category.over_factorWithin]
    exact run_limited category (512 - depth) input
  · intro category depth less input le uncut
    simp only [category.over_factorWithin] at uncut ⊢
    exact run_of_le (Nat.sub_le_sub_left le 512) uncut

/-- Inside 511 others, `-(2)` is cut at its parenthesis: the sign is the last that is allowed. -/
theorem limit_only_cuts_sign :
    (Category.sum.over (Parser.factorWithin 511)).run
        [⟨.minus, 0⟩, ⟨.leftParen, 1⟩, ⟨.number 2, 2⟩, ⟨.rightParen, 3⟩] =
      (.error (.nestingTooDeep 1 512), [⟨.leftParen, 1⟩, ⟨.number 2, 2⟩, ⟨.rightParen, 3⟩]) := by
  have two : Derives .sum [⟨.number 2, 2⟩] (.literal 2 2) 0 := Derives.number.of_factor .sum
  have negation : Derives .factor
      [⟨.minus, 0⟩, ⟨.leftParen, 1⟩, ⟨.number 2, 2⟩, ⟨.rightParen, 3⟩]
      (.unary .neg (.literal 2 2) 0) 2 := .signed .minus (.group two)
  have unlimited : (Category.sum.over Parser.unlimited).run
      [⟨.minus, 0⟩, ⟨.leftParen, 1⟩, ⟨.number 2, 2⟩, ⟨.rightParen, 3⟩] =
      (.ok (.unary .neg (.literal 2 2) 0), []) := by
    have stops : Category.sum.Stops ([] : List Lexeme).head? := nofun
    rw [over_unlimited (Nat.le_refl _)]
    exact (negation.of_factor .sum).run_of_stops (by decide) stops
  obtain ⟨_, _, limited, _⟩ := limit_only_cuts
  obtain ⟨consumed, split, _, cut⟩ := limited .sum 511
    [⟨.minus, 0⟩, ⟨.leftParen, 1⟩, ⟨.number 2, 2⟩, ⟨.rightParen, 3⟩]
  rw [unlimited] at split cut
  rw [List.append_nil] at split
  subst split
  have inside : EnclosedBy .sum [⟨.minus, 0⟩] 1 :=
    .first .sums (.first .products (.signed .minus .start))
  obtain ⟨before, opening, after, first, run⟩ := cut fun fits =>
    absurd (fits [⟨.minus, 0⟩] _ _ 1 rfl .leftParen inside) (by decide)
  rw [run]
  obtain ⟨split, encloses, ⟨count, enclosed, beyond⟩, _⟩ := first
  have atParenthesis : before = [⟨.minus, 0⟩] := by
    have few := enclosed.count_le_length
    match before with
    | [] => exact absurd (Nat.le_trans beyond few) (by decide)
    | [_] =>
        cases split
        rfl
    | [_, _] | [_, _, _] =>
        cases split
        cases encloses
    | _ :: _ :: _ :: _ :: _ => simp at split
  subst atParenthesis
  cases split
  rfl

end Grammar

end Calculator
