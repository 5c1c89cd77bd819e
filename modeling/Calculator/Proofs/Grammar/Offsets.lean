import Calculator.Proofs.Grammar.FirstError

/-!
# Offsets of lexemes

Parsing decides by tokens alone. Where the offsets of lexemes are replaced, the positions in the tree or
in the error are replaced alike, and nothing else changes. The position of an error is the offset of a
lexeme.
-/

set_option autoImplicit false

namespace Calculator

def Lexeme.mapOffset (f : Nat → Nat) (lexeme : Lexeme) : Lexeme :=
  ⟨lexeme.token, f lexeme.offset⟩

def Expr.mapPosition (f : Nat → Nat) : Expr → Expr
  | .literal value position => .literal value (f position)
  | .unary operator operand position => .unary operator (operand.mapPosition f) (f position)
  | .binary operator left right position =>
      .binary operator (left.mapPosition f) (right.mapPosition f) (f position)

def EvalError.mapPosition (f : Nat → Nat) : EvalError → EvalError
  | .unexpectedChar position character => .unexpectedChar (f position) character
  | .unexpectedToken position expected found => .unexpectedToken (f position) expected found
  | .unexpectedEnd position => .unexpectedEnd (f position)
  | .divisionByZero position => .divisionByZero (f position)
  | .emptyExpression => .emptyExpression
  | .nestingTooDeep position limit => .nestingTooDeep (f position) limit
  | .internal cause => .internal cause

/-- The positions in an answer replaced, be it a tree or an error. -/
def mapAnswer (f : Nat → Nat) (result : Except EvalError Expr) : Except EvalError Expr :=
  (result.map (Expr.mapPosition f)).mapError (EvalError.mapPosition f)

namespace Grammar

variable {category : Category} {levels : Nat} {input : List Lexeme}

theorem Derives.mapOffset {e : Expr} {depth : Nat} (derives : Derives category input e depth)
    (f : Nat → Nat) :
    Derives category (input.map (Lexeme.mapOffset f)) (e.mapPosition f) depth := by
  induction derives with
  | number => exact .number
  | signed signs _ ih => exact .signed signs ih
  | group _ ih =>
      rw [List.map_cons, List.map_append]
      exact .group ih
  | single chains _ ih => exact .single chains ih
  | joined chains joins _ _ leftIH rightIH =>
      rw [List.map_append]
      exact .joined chains joins leftIH rightIH

theorem Begun.mapOffset {expected : Expected} {room : Nat}
    (begun : Begun category levels input expected room) (f : Nat → Nat) :
    Begun category levels (input.map (Lexeme.mapOffset f)) expected room := by
  induction begun with
  | start => exact .start
  | signed signs _ ih => exact .signed signs ih
  | opened _ ih => exact .opened ih
  | unclosed derives shallow => exact .unclosed (derives.mapOffset f) shallow
  | first chains _ ih => exact .first chains ih
  | next chains joins derives shallow _ ih =>
      rw [List.map_append]
      exact .next chains joins (derives.mapOffset f) shallow ih

theorem Refused.mapOffset {room : Nat} {expected : Expected} {next : Option Lexeme}
    {error : EvalError} (refused : Refused room expected next error) (f : Nat → Nat) :
    Refused room expected (next.map (Lexeme.mapOffset f)) (error.mapPosition f) := by
  cases refused with
  | exhausted => exact .exhausted
  | atEnd other => exact .atEnd other
  | tooDeep full encloses => exact .tooDeep full encloses
  | misplaced proper refuses => exact .misplaced proper refuses

theorem Category.Stops.mapOffset {next : Option Lexeme} (stops : category.Stops next)
    (f : Nat → Nat) : category.Stops (next.map (Lexeme.mapOffset f)) := by
  intro lexeme member
  obtain ⟨original, found, rfl⟩ := Option.map_eq_some_iff.mp member
  exact stops original found

theorem Outcome.mapOffset {next : Option Lexeme} {result : Except EvalError Expr}
    (outcome : Outcome category levels input next result) (f : Nat → Nat) :
    Outcome category levels (input.map (Lexeme.mapOffset f)) (next.map (Lexeme.mapOffset f))
      (mapAnswer f result) := by
  cases outcome with
  | read derives shallow stops => exact .read (derives.mapOffset f) shallow (stops.mapOffset f)
  | refused begun refused => exact .refused (begun.mapOffset f) (refused.mapOffset f)

theorem run_mapOffset {rest : List Lexeme} {result : Except EvalError Expr}
    (run : (category.parser levels).run input = (result, rest)) (f : Nat → Nat) :
    (category.parser levels).run (input.map (Lexeme.mapOffset f)) =
      (mapAnswer f result, rest.map (Lexeme.mapOffset f)) := by
  obtain ⟨consumed, rfl, outcome⟩ := run_iff.mp run
  have mapped := outcome.mapOffset f
  rw [← List.head?_map] at mapped
  exact run_iff.mpr ⟨_, List.map_append, mapped⟩

theorem conclude_mapOffset (f : Nat → Nat) (result : Except EvalError Expr)
    (next : Option Lexeme) :
    conclude (mapAnswer f result) (next.map (Lexeme.mapOffset f)) =
      mapAnswer f (conclude result next) := by
  cases result with
  | error error => rfl
  | ok e =>
      cases next with
      | none => rfl
      | some next =>
          obtain ⟨token, offset⟩ := next
          cases token <;> rfl

/-- Parsing commutes with every replacement of offsets, also with one that identifies some. -/
theorem parseLexemes_mapOffset (f : Nat → Nat) (input : List Lexeme) :
    parseLexemes (input.map (Lexeme.mapOffset f)) = mapAnswer f (parseLexemes input) := by
  cases input with
  | nil => rfl
  | cons first input =>
      by_cases ended : first.token = .endMarker
      · have mappedEnded : (first.mapOffset f).token = .endMarker := ended
        rw [List.map_cons, parseLexemes, parseLexemes, if_pos mappedEnded, if_pos ended]
        rfl
      · rcases run : (Category.sum.parser Parser.maxNesting).run (first :: input) with
          ⟨result, left⟩
        have mappedRun := run_mapOffset run f
        have mappedProper : (first.mapOffset f).token ≠ .endMarker := ended
        rw [List.map_cons] at mappedRun ⊢
        rw [parseLexemes_cons ended run, parseLexemes_cons mappedProper mappedRun, List.head?_map,
          conclude_mapOffset]

theorem Refused.exists_next {room : Nat} {expected : Expected} {next : Option Lexeme}
    {error : EvalError} (refused : Refused room expected next error) {position : Nat}
    (located : position ∈ error.position?) : ∃ lexeme ∈ next, lexeme.offset = position := by
  cases refused <;> cases located <;> exact ⟨_, rfl, rfl⟩

theorem position_mem_of_parseLexemes {error : EvalError}
    (failed : parseLexemes input = .error error) :
    ∀ position ∈ error.position?, position ∈ input.map Lexeme.offset := by
  by_cases ended : ∃ first ∈ input.head?, first.token = .endMarker
  · rw [parseLexemes_of_endMarker failed ended]
    exact nofun
  · obtain ⟨read, rest, _, _, rfl, _, refused⟩ :=
      refused_of_parseLexemes failed fun first head marker => ended ⟨first, head, marker⟩
    intro position located
    obtain ⟨next, head, rfl⟩ := refused.exists_next located
    exact List.mem_map_of_mem (List.mem_append_right _ (List.mem_of_mem_head? head))

end Grammar

end Calculator
