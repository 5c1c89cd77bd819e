import Calculator.Proofs.Grammar.Step

/-!
# What the parsers read

A parser takes the lexemes of one phrase, or of the beginning of one. Which of the two it is, and what
the parser answers, depends on these lexemes and the next one alone: `run_iff` says so for the
parsers of all categories at once, with every error among the answers.
-/

set_option autoImplicit false

namespace Calculator.Grammar

/-- What is made of the lexemes of `input` before the lexeme `next`. -/
inductive Outcome (category : Category) (levels : Nat) (input : List Lexeme)
    (next : Option Lexeme) : Except EvalError Expr → Prop where
  | read {e depth} :
      Derives category input e depth → depth ≤ levels → category.Stops next →
      Outcome category levels input next (.ok e)
  | refused {expected room error} :
      Begun category levels input expected room → Refused room expected next error →
      Outcome category levels input next (.error error)

/-- Whether an answer is right for some of the lexemes at the head of `input`, and leaves the
others. -/
def Reads (category : Category) (levels : Nat) (input : List Lexeme) (parsed : Parsed) : Prop :=
  ∃ consumed, input = consumed ++ parsed.2 ∧
    Outcome category levels consumed parsed.2.head? parsed.1

theorem Outcome.proper {category : Category} {levels : Nat} {input : List Lexeme}
    {next : Option Lexeme} {result : Except EvalError Expr}
    (outcome : Outcome category levels input next result) :
    ∀ lexeme ∈ input, lexeme.token ≠ .endMarker ∧ lexeme.token ≠ .blank := by
  cases outcome with
  | read derives => exact derives.proper
  | refused begun => exact begun.proper

/-! ## Soundness -/

variable {category outer inner : Category} {levels : Nat}

/-- The loop of a chain reads on after `left`, which the parts read so far make up. -/
theorem Chains.chainFrom_reads (chains : Chains outer inner)
    (innerReads : ∀ input, Reads inner levels input ((inner.parser levels).run input))
    (e : Expr) (rest : List Lexeme) {left : List Lexeme} {depth : Nat}
    (derives : Derives outer left e depth) (shallow : depth ≤ levels)
    (stops : inner.Stops rest.head?) :
    Reads outer levels (left ++ rest)
      (Parser.chainFrom (inner.parser levels) outer.operator? e rest) := by
  fun_induction Parser.chainFrom (inner.parser levels) outer.operator? e rest
    generalizing left depth with
  | case1 e =>
      exact ⟨left, rfl, .read derives shallow (chains.stops_of_operator stops (by simp))⟩
  | case2 e next rest none =>
      exact ⟨left, rfl, .read derives shallow (chains.stops_of_operator stops (by simpa using none))⟩
  | case3 e next rest operator found error rest' run =>
      obtain ⟨consumed, split, outcome⟩ := innerReads rest
      rw [run] at split outcome
      cases outcome with
      | refused begun refused =>
          have joins := operator?_eq_some_iff.mp found
          exact ⟨left ++ next :: consumed, by simp [split],
            .refused (.next chains joins derives shallow begun) refused⟩
  | case4 e next rest operator found right rest' run ih =>
      obtain ⟨consumed, split, outcome⟩ := innerReads rest
      rw [run] at split outcome
      cases outcome with
      | read rightDerives rightShallow rightStops =>
          have joins := operator?_eq_some_iff.mp found
          have joined : Derives outer (left ++ next :: consumed)
              (.binary operator e right next.offset) _ := .joined chains joins derives rightDerives
          obtain ⟨whole, wholeSplit, outcome⟩ :=
            ih joined (Nat.max_le.mpr ⟨shallow, rightShallow⟩) rightStops
          exact ⟨whole, by simpa [split] using wholeSplit, outcome⟩

theorem Chains.reads (chains : Chains outer inner)
    (innerReads : ∀ input, Reads inner levels input ((inner.parser levels).run input))
    (input : List Lexeme) : Reads outer levels input ((outer.parser levels).run input) := by
  obtain ⟨consumed, split, outcome⟩ := innerReads input
  rw [chains.run_eq]
  rcases run : (inner.parser levels).run input with ⟨result, rest⟩
  rw [run] at split outcome
  cases outcome with
  | read derives shallow stops =>
      simp only [chains.resume_eq]
      rw [split]
      exact chains.chainFrom_reads innerReads _ rest (.single chains derives) shallow stops
  | refused begun refused => exact ⟨consumed, split, .refused (.first chains begun) refused⟩

private theorem reads_of_refused {rest : List Lexeme} {error : EvalError}
    (refused : Refused levels .operand rest.head? error) :
    Reads .factor levels rest ((Parser.factor levels).run rest) := by
  rw [run_of_refused refused]
  exact ⟨[], rfl, .refused .start refused⟩

private theorem reads_signed {sign : Token} {operator : UnaryOperator} (signs : Signs sign operator)
    (innerReads : ∀ input, Reads .factor levels input ((Parser.factor levels).run input))
    (offset : Nat) (rest : List Lexeme) :
    Reads .factor (levels + 1) (⟨sign, offset⟩ :: rest)
      ((Parser.factor (levels + 1)).run (⟨sign, offset⟩ :: rest)) := by
  obtain ⟨consumed, split, outcome⟩ := innerReads rest
  rw [run_signed signs]
  rcases run : (Parser.factor levels).run rest with ⟨result, rest'⟩
  rw [run] at split outcome
  cases outcome with
  | read derives shallow stops =>
      exact ⟨⟨sign, offset⟩ :: consumed, by simp [split],
        .read (.signed signs derives) (Nat.succ_le_succ shallow) stops⟩
  | refused begun refused =>
      exact ⟨⟨sign, offset⟩ :: consumed, by simp [split], .refused (.signed signs begun) refused⟩

private theorem reads_close {input : List Lexeme} {e : Expr} {depth : Nat} (offset : Nat)
    (derives : Derives .sum input e depth) (shallow : depth ≤ levels) (rest : List Lexeme)
    (stops : Category.sum.Stops rest.head?) :
    Reads .factor (levels + 1) (⟨.leftParen, offset⟩ :: (input ++ rest)) (Parser.close e rest) := by
  have refuse : ∀ {error}, Refused levels .closingParen rest.head? error →
      Reads .factor (levels + 1) (⟨.leftParen, offset⟩ :: (input ++ rest))
        (Parser.close e rest) := by
    intro error refused
    rw [close_of_refused refused]
    exact ⟨⟨.leftParen, offset⟩ :: input, rfl, .refused (.unclosed derives shallow) refused⟩
  cases rest with
  | nil => exact refuse .exhausted
  | cons next rest =>
      obtain ⟨token, closing⟩ := next
      cases token with
      | rightParen =>
          rw [close_rightParen]
          exact ⟨⟨.leftParen, offset⟩ :: (input ++ [⟨.rightParen, closing⟩]), by simp,
            .read (.group derives) (Nat.succ_le_succ shallow)
              (fun lexeme _ => not_continues_factor lexeme.token)⟩
      | endMarker => exact refuse (.atEnd (by simp))
      | _ => exact refuse (.misplaced (by simp) (stops.not_admits (by simp) (by simp)))

private theorem reads_group
    (sumReads : ∀ input, Reads .sum levels input ((Category.sum.parser levels).run input))
    (offset : Nat) (rest : List Lexeme) :
    Reads .factor (levels + 1) (⟨.leftParen, offset⟩ :: rest)
      ((Parser.factor (levels + 1)).run (⟨.leftParen, offset⟩ :: rest)) := by
  obtain ⟨consumed, split, outcome⟩ := sumReads rest
  rw [run_group]
  rcases run : (Category.sum.parser levels).run rest with ⟨result, rest'⟩
  rw [run] at split outcome
  cases outcome with
  | read derives shallow stops =>
      rw [split]
      exact reads_close offset derives shallow rest' stops
  | refused begun refused =>
      exact ⟨⟨.leftParen, offset⟩ :: consumed, by simp [split], .refused (.opened begun) refused⟩

/-- The parser of factors without levels left, and with them if it reads right at the levels below. -/
private theorem reads_encloses {token : Token} (encloses : Encloses token)
    (innerReads : ∀ less, levels = less + 1 → ∀ input,
      Reads .factor less input ((Parser.factor less).run input))
    (offset : Nat) (rest : List Lexeme) :
    Reads .factor levels (⟨token, offset⟩ :: rest)
      ((Parser.factor levels).run (⟨token, offset⟩ :: rest)) := by
  cases levels with
  | zero => exact reads_of_refused (.tooDeep rfl encloses)
  | succ less =>
      have factorReads := innerReads less rfl
      cases encloses with
      | plus => exact reads_signed .plus factorReads offset rest
      | minus => exact reads_signed .minus factorReads offset rest
      | leftParen =>
          exact reads_group (Chains.sums.reads (Chains.products.reads factorReads)) offset rest

theorem factor_reads (levels : Nat) (input : List Lexeme) :
    Reads .factor levels input ((Parser.factor levels).run input) := by
  induction levels using Nat.strongRecOn generalizing input with
  | ind levels ih =>
      have innerReads : ∀ less, levels = less + 1 → ∀ input,
          Reads .factor less input ((Parser.factor less).run input) :=
        fun less below => ih less (below ▸ Nat.lt_succ_self less)
      cases input with
      | nil => exact reads_of_refused .exhausted
      | cons next rest =>
          obtain ⟨token, offset⟩ := next
          cases token with
          | number value =>
              rw [run_number]
              exact ⟨[⟨.number value, offset⟩], rfl, .read .number (Nat.zero_le levels)
                (fun lexeme _ => not_continues_factor lexeme.token)⟩
          | plus => exact reads_encloses .plus innerReads offset rest
          | minus => exact reads_encloses .minus innerReads offset rest
          | leftParen => exact reads_encloses .leftParen innerReads offset rest
          | endMarker => exact reads_of_refused (.atEnd (by simp))
          | _ =>
              exact reads_of_refused
                (.misplaced (by simp) (not_admits_operand (by simp) nofun))

theorem parser_reads (category : Category) (levels : Nat) (input : List Lexeme) :
    Reads category levels input ((category.parser levels).run input) := by
  have productReads := Chains.products.reads (factor_reads levels)
  cases category with
  | factor => exact factor_reads levels input
  | product => exact productReads input
  | sum => exact Chains.sums.reads productReads input

/-! ## Completeness -/

/-- A parser takes a phrase as a whole, and then goes on as after a first part. -/
theorem Derives.run_eq {input : List Lexeme} {e : Expr} {depth : Nat}
    (derives : Derives category input e depth) :
    ∀ levels rest, depth ≤ levels → (∀ inner, Chains category inner → inner.Stops rest.head?) →
      (category.parser levels).run (input ++ rest) = category.resume levels e rest := by
  induction derives with
  | number => exact fun levels rest _ _ => run_number levels _ _ rest
  | @signed sign operator offset input e depth signs _ ih =>
      intro levels rest shallow _
      obtain ⟨less, rfl⟩ := Nat.exists_eq_add_of_le' (Nat.one_le_of_lt shallow)
      have operand : (Parser.factor less).run (input ++ rest) = (.ok e, rest) :=
        ih less rest (Nat.le_of_succ_le_succ shallow) nofun
      change (Parser.factor (less + 1)).run (⟨sign, offset⟩ :: (input ++ rest)) = (.ok _, rest)
      rw [run_signed signs, operand]
  | @group opening closing input e depth _ ih =>
      intro levels rest shallow _
      obtain ⟨less, rfl⟩ := Nat.exists_eq_add_of_le' (Nat.one_le_of_lt shallow)
      have stops : ∀ category : Category, category.Stops (some ⟨.rightParen, closing⟩) :=
        fun category => category.stops_of_not_joins fun lexeme next => by
          cases next
          exact nofun
      have enclosed : (Category.sum.parser less).run (input ++ ⟨.rightParen, closing⟩ :: rest) =
          (.ok e, ⟨.rightParen, closing⟩ :: rest) := by
        rw [ih less (⟨.rightParen, closing⟩ :: rest) (Nat.le_of_succ_le_succ shallow)
          (fun inner _ => stops inner), Category.resume_of_stops less e (stops .sum)]
      change (Parser.factor (less + 1)).run
        (⟨.leftParen, opening⟩ :: (input ++ [⟨.rightParen, closing⟩] ++ rest)) = (.ok e, rest)
      rw [List.append_assoc, List.singleton_append, run_group, enclosed]
      exact close_rightParen e closing rest
  | @single outer inner input e depth chains _ ih =>
      intro levels rest shallow stops
      have innerStops := stops inner chains
      rw [chains.run_eq, ih levels rest shallow fun _ below => below.stops innerStops,
        Category.resume_of_stops levels e innerStops]
  | @joined outer inner token operator offset left right l r _ _ chains joins _ _ leftIH rightIH =>
      intro levels rest shallow stops
      obtain ⟨leftShallow, rightShallow⟩ := Nat.max_le.mp shallow
      have innerStops := stops inner chains
      have operand : (inner.parser levels).run (right ++ rest) = (.ok r, rest) := by
        rw [rightIH levels rest rightShallow fun _ below => below.stops innerStops,
          Category.resume_of_stops levels r innerStops]
      have leftRead := leftIH levels (⟨token, offset⟩ :: (right ++ rest)) leftShallow
        (joins.stops_parts offset)
      rw [List.append_assoc, List.cons_append, leftRead, chains.resume_joined joins, operand]

theorem Derives.run_of_stops {input : List Lexeme} {e : Expr} {depth : Nat}
    (derives : Derives category input e depth) (shallow : depth ≤ levels) {rest : List Lexeme}
    (stops : category.Stops rest.head?) :
    (category.parser levels).run (input ++ rest) = (.ok e, rest) := by
  rw [derives.run_eq levels rest shallow fun _ below => below.stops stops,
    Category.resume_of_stops levels e stops]

/-- A parser that runs into a refused lexeme after the beginning of a phrase stops there. -/
theorem Begun.run_of_refused {input : List Lexeme} {expected : Expected} {room : Nat}
    (begun : Begun category levels input expected room) {rest : List Lexeme} {error : EvalError}
    (refused : Refused room expected rest.head? error) :
    (category.parser levels).run (input ++ rest) = (.error error, rest) := by
  induction begun with
  | start => exact Grammar.run_of_refused refused
  | @signed levels sign operator offset input _ _ signs _ ih =>
      have operand : (Parser.factor levels).run (input ++ rest) = (.error error, rest) := ih refused
      change (Parser.factor (levels + 1)).run (⟨sign, offset⟩ :: (input ++ rest)) = (.error _, rest)
      rw [run_signed signs, operand]
  | @opened levels offset input _ _ _ ih =>
      change (Parser.factor (levels + 1)).run (⟨.leftParen, offset⟩ :: (input ++ rest)) = _
      rw [run_group, ih refused]
  | @unclosed levels offset input e _ derives shallow =>
      have enclosed : (Category.sum.parser levels).run (input ++ rest) = (.ok e, rest) :=
        derives.run_of_stops shallow (refused.stops (by simp))
      change (Parser.factor (levels + 1)).run (⟨.leftParen, offset⟩ :: (input ++ rest)) = _
      rw [run_group, enclosed]
      exact close_of_refused refused
  | first chains _ ih => rw [chains.run_eq, ih refused]
  | @next outer _ token _ offset levels left l _ input _ _ chains joins derives shallow _ ih =>
      have leftRead := derives.run_eq levels (⟨token, offset⟩ :: (input ++ rest)) shallow
        (joins.stops_parts offset)
      rw [List.append_assoc, List.cons_append, leftRead, chains.resume_joined joins, ih refused]

/-- What a parser answers and leaves, for every input. -/
theorem run_iff {input : List Lexeme} {result : Except EvalError Expr} {rest : List Lexeme} :
    (category.parser levels).run input = (result, rest) ↔
      ∃ consumed, input = consumed ++ rest ∧
        Outcome category levels consumed rest.head? result := by
  constructor
  · intro run
    have reads := parser_reads category levels input
    rw [run] at reads
    exact reads
  · intro answer
    obtain ⟨consumed, rfl, outcome⟩ := answer
    cases outcome with
    | read derives shallow stops => exact derives.run_of_stops shallow stops
    | refused begun refused => exact begun.run_of_refused refused

end Calculator.Grammar
