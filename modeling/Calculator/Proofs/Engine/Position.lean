import Calculator.Engine
import Calculator.Proofs.Evaluation.Refinement
import Calculator.Proofs.Grammar.FirstError
import Calculator.Proofs.Grammar.Recognition
import Calculator.Proofs.Grammar.Traversal
import Calculator.Proofs.Scanning.Tokenization

/-!
# Positions of errors

Whether characters, lexemes or values are at fault, the error of an evaluation gives the place in the
source. What stands before that place is ASCII, so the place is the same in bytes and in characters.
-/

set_option autoImplicit false

namespace Calculator

open Grammar Scanning

/-- `PointsAt before after error`: the error is about what stands between `before` and the end of
`after`, at its head. -/
inductive PointsAt (before : List Char) : List Char → EvalError → Prop where
  | foreign {c after} :
      Foreign c → PointsAt before (c :: after) (.unexpectedChar before.length c)
  | token {word found expected after} :
      Munches word found after → found ≠ .endMarker → found ≠ .blank →
      PointsAt before (word ++ after) (.unexpectedToken before.length expected found)
  | atEnd : PointsAt before [] (.unexpectedEnd before.length)
  | division {after} : PointsAt before ('/' :: after) (.divisionByZero before.length)
  | nesting {c after} :
      c ∈ ['+', '-', '('] → PointsAt before (c :: after) (.nestingTooDeep before.length 512)

namespace PointsAt

variable {before after : List Char} {error : EvalError}

theorem position? (points : PointsAt before after error) :
    error.position? = some before.length := by
  cases points <;> rfl

theorem isInternal (points : PointsAt before after error) : error.isInternal = false := by
  cases points <;> rfl

theorem ne_emptyExpression (points : PointsAt before after error) : error ≠ .emptyExpression := by
  cases points <;> simp

end PointsAt

/-- Whether an error points at a place in a source that follows ASCII characters only. -/
def Located (source : String) (error : EvalError) : Prop :=
  ∃ before after, source.toList = before ++ after ∧ (∀ c ∈ before, c.val ≤ 127) ∧
    PointsAt before after error

theorem Expr.lexeme_mem_inorder {e node : Expr} (member : node ∈ e.postorder) :
    node.lexeme ∈ e.inorder := by
  induction e with
  | literal =>
      rw [List.mem_singleton.mp member]
      exact List.mem_cons_self
  | unary operator operand position ih =>
      rcases List.mem_append.mp member with member | root
      · exact List.mem_cons_of_mem _ (ih member)
      · rw [List.mem_singleton.mp root]
        exact List.mem_cons_self
  | binary operator left right position leftIH rightIH =>
      simp only [postorder, List.mem_append, List.mem_singleton] at member
      rcases member with (member | member) | rfl
      · exact List.mem_append_left _ (leftIH member)
      · exact List.mem_append_right _ (List.mem_cons_of_mem _ (rightIH member))
      · exact List.mem_append_right _ List.mem_cons_self

theorem Expr.exists_slash_of_eval {e : Expr} {error : EvalError}
    (failed : e.eval = .error error) :
    ∃ position, error = .divisionByZero position ∧ ⟨.slash, position⟩ ∈ e.inorder := by
  rw [eval_eq_value] at failed
  obtain ⟨_, rfl, before, node, after, nodes, _, divides, rfl⟩ := value_eq_error_iff.mp failed
  cases divides with
  | @intro left right position _ _ _ =>
      have among : .binary .div left right position ∈ e.postorder := by simp [nodes]
      exact ⟨position, rfl, lexeme_mem_inorder among⟩

theorem parse_of_tokenize {source : String} {lexemes : List Lexeme}
    (tokenized : tokenize source = .ok lexemes) : parse source = parseLexemes lexemes := by
  simp only [parse, tokenized]

theorem evaluate_of_parse {source : String} {e : Expr} (parsed : parse source = .ok e) :
    evaluate source = e.eval := by
  simp only [evaluate, parsed]

theorem evaluate_of_tokenize {source : String} {lexemes : List Lexeme}
    (tokenized : tokenize source = .ok lexemes) :
    evaluate source = match parseLexemes lexemes with
      | .error error => .error error
      | .ok e => e.eval := by
  have parsed := parse_of_tokenize tokenized
  cases result : parseLexemes lexemes with
  | error error => simp only [evaluate, parsed, result]
  | ok e => simp only [evaluate, parsed, result]

theorem parse_of_derives {source : String} {lexemes : List Lexeme} {e : Expr} {depth : Nat}
    (partition : Partition source.toList lexemes) (derives : Derives .sum lexemes e depth)
    (shallow : depth ≤ 512) : parse source = .ok e := by
  rw [parse_of_tokenize partition.tokenize]
  exact derives.parseLexemes shallow rfl []

section Partition

variable {source : String} {lexemes : List Lexeme} (partition : Partition source.toList lexemes)

include partition

theorem exists_word {lexeme : Lexeme} (member : lexeme ∈ lexemes) :
    ∃ before word after, source.toList = before ++ (word ++ after) ∧
      (∀ c ∈ before, c.val ≤ 127) ∧ Munches word lexeme.token after ∧
      lexeme.offset = before.length := by
  obtain ⟨before, word, after, split, munches, found⟩ := partition.located member
  have ascii : ∀ c ∈ before, c.val ≤ 127 := fun c inside =>
    partition.ascii c (split ▸ List.mem_append_left _ inside)
  exact ⟨before, word, after, split, ascii, munches, by rw [found, byteSize_eq_length ascii]⟩

/-- An error about a token is located where a lexeme of that token stands. -/
theorem located_of_word {token : Token} {offset : Nat} (member : ⟨token, offset⟩ ∈ lexemes)
    (error : Nat → EvalError)
    (points : ∀ before word after, Munches word token after →
      PointsAt before (word ++ after) (error before.length)) :
    Located source (error offset) := by
  obtain ⟨before, word, after, split, ascii, munches, found⟩ := exists_word partition member
  simp only at munches found
  subst found
  exact ⟨before, word ++ after, split, ascii, points before word after munches⟩

theorem located_of_encloses {token : Token} {offset : Nat} (member : ⟨token, offset⟩ ∈ lexemes)
    (encloses : Encloses token) : Located source (.nestingTooDeep offset Parser.maxNesting) := by
  refine located_of_word partition member (.nestingTooDeep · Parser.maxNesting) ?_
  intro before word after munches
  cases encloses <;> cases munches <;> exact .nesting (by simp)

theorem located_of_token {token : Token} {offset : Nat} (member : ⟨token, offset⟩ ∈ lexemes)
    (expected : Expected) : Located source (.unexpectedToken offset expected token) := by
  refine located_of_word partition member (.unexpectedToken · expected token) ?_
  intro before word after munches
  exact .token munches munches.proper.1 munches.proper.2

theorem located_of_slash {offset : Nat} (member : ⟨.slash, offset⟩ ∈ lexemes) :
    Located source (.divisionByZero offset) := by
  refine located_of_word partition member .divisionByZero ?_
  intro before word after munches
  cases munches
  exact .division

theorem located_at_end : Located source (.unexpectedEnd source.utf8ByteSize) := by
  refine ⟨source.toList, [], by simp, partition.ascii, ?_⟩
  rw [← byteSize_toList, byteSize_eq_length partition.ascii]
  exact .atEnd

theorem located_of_refused {read rest : List Lexeme} {expected : Expected} {room : Nat}
    {error : EvalError}
    (split : lexemes ++ [⟨.endMarker, source.utf8ByteSize⟩] = read ++ rest) (endFree : EndFree read)
    (refused : Refused room expected rest.head? error) : Located source error := by
  cases rest with
  | nil =>
      rw [List.append_nil] at split
      subst split
      exact absurd rfl (endFree ⟨.endMarker, source.utf8ByteSize⟩ (by simp))
  | cons next rest =>
      -- The refused lexeme is one of the source, or the end marker after them.
      have among : next ∈ lexemes ++ [⟨.endMarker, source.utf8ByteSize⟩] := by simp [split]
      have inside : next.token ≠ .endMarker → next ∈ lexemes := by
        intro other
        rcases List.mem_append.mp among with member | marker
        · exact member
        · rw [List.mem_singleton.mp marker] at other
          exact absurd rfl other
      cases refused with
      | @atEnd _ offset other =>
          rcases List.mem_append.mp among with member | marker
          · exact absurd rfl (partition.proper _ member).1
          · cases List.mem_singleton.mp marker
            exact located_at_end partition
      | tooDeep _ encloses => exact located_of_encloses partition (inside encloses.proper) encloses
      | misplaced other _ => exact located_of_token partition (inside other) _

theorem located_of_eval {category : Category} {e : Expr} {depth : Nat} {error : EvalError}
    (derives : Derives category lexemes e depth) (failed : e.eval = .error error) :
    Located source error := by
  obtain ⟨position, rfl, slash⟩ := Expr.exists_slash_of_eval failed
  rw [derives.inorder_eq] at slash
  exact located_of_slash partition (List.mem_of_mem_filter slash)

theorem located_of_lexemes {error : EvalError} (filled : lexemes ≠ [])
    (failed : evaluate source = .error error) : Located source error := by
  rw [evaluate_of_tokenize partition.tokenize] at failed
  cases parsed : parseLexemes (lexemes ++ [⟨.endMarker, source.utf8ByteSize⟩]) with
  | error fault =>
      rw [parsed] at failed
      cases failed
      have proper : ∀ first ∈ (lexemes ++ [Lexeme.mk .endMarker source.utf8ByteSize]).head?,
          first.token ≠ .endMarker := by
        intro first head
        rw [List.head?_append_of_ne_nil _ filled] at head
        exact (partition.proper first (List.mem_of_mem_head? head)).1
      obtain ⟨read, rest, expected, room, split, awaits, refused⟩ :=
        refused_of_parseLexemes parsed proper
      exact located_of_refused partition split awaits.endFree refused
  | ok e =>
      rw [parsed] at failed
      obtain ⟨depth, derives, _⟩ := derives_of_endFree
        (fun lexeme member => (partition.proper lexeme member).1) rfl parsed
      exact located_of_eval partition derives failed

end Partition

theorem partition_nil_iff {source : List Char} :
    Partition source [] ↔ ∀ c ∈ source, isSeparator c = true := by
  constructor
  · intro partition
    obtain ⟨text, gap, rfl, covers, separators⟩ := partition.covered
    cases covers
    exact separators
  · intro separators
    exact Covers.partition .nil separators

theorem isSeparator_iff {c : Char} :
    isSeparator c = true ↔ c ∈ [' ', '\t', '\n', '\r', '\x0c'] := by
  simp [isSeparator, or_assoc]

theorem evaluate_of_separators {source : String}
    (separators : ∀ c ∈ source.toList, isSeparator c = true) :
    evaluate source = .error .emptyExpression := by
  rw [evaluate_of_tokenize (partition_nil_iff.mpr separators).tokenize]
  rfl

theorem located_or_empty {source : String} {error : EvalError}
    (failed : evaluate source = .error error) :
    Located source error ∨
      error = .emptyExpression ∧ ∀ c ∈ source.toList, isSeparator c = true := by
  rcases tokenize_cases source with ⟨lexemes, partition, _⟩ |
    ⟨before, c, after, lexemes, split, foreign, partition, tokenized⟩
  · by_cases empty : lexemes = []
    · subst empty
      have separators := partition_nil_iff.mp partition
      rw [evaluate_of_separators separators] at failed
      cases failed
      exact .inr ⟨rfl, separators⟩
    · exact .inl (located_of_lexemes partition empty failed)
  · simp only [evaluate, parse, tokenized] at failed
    cases failed
    rw [byteSize_eq_length partition.ascii]
    exact .inl ⟨before, c :: after, split, partition.ascii, .foreign foreign⟩

theorem isInternal_of_evaluate {source : String} {error : EvalError}
    (failed : evaluate source = .error error) : error.isInternal = false := by
  rcases located_or_empty failed with ⟨_, _, _, _, points⟩ | ⟨rfl, _⟩
  · exact points.isInternal
  · rfl

/-- The error of an evaluation is no internal one. It is the one of an empty expression for sources of
separators, and every other error points at what is at fault, with a position that is the same in
bytes and in characters. -/
theorem evaluate_error_points {source : String} {error : EvalError}
    (failed : evaluate source = .error error) :
    error.isInternal = false ∧
    (error = .emptyExpression ↔ ∀ c ∈ source.toList, c ∈ [' ', '\t', '\n', '\r', '\x0c']) ∧
    (error ≠ .emptyExpression → ∃ before after, source.toList = before ++ after ∧
      (∀ c ∈ before, c.val ≤ 127) ∧ byteSize before = before.length ∧
      before.length ≤ source.utf8ByteSize ∧ error.position? = some before.length ∧
      PointsAt before after error) := by
  simp only [← isSeparator_iff]
  rcases located_or_empty failed with ⟨before, after, split, ascii, points⟩ | ⟨rfl, separators⟩
  · have bytes := byteSize_eq_length ascii
    have within : before.length ≤ source.utf8ByteSize := by
      rw [← byteSize_toList, split, byteSize_append, bytes]
      exact Nat.le_add_right _ _
    refine ⟨points.isInternal, ⟨fun empty => absurd empty points.ne_emptyExpression, ?_⟩,
      fun _ => ⟨before, after, split, ascii, bytes, within, points.position?, points⟩⟩
    intro separators
    rw [evaluate_of_separators separators] at failed
    cases failed
    rfl
  · exact ⟨rfl, ⟨fun _ => separators, fun _ => rfl⟩, fun other => absurd rfl other⟩

/-- A division by a zero that is computed is reported at the slash. -/
theorem evaluate_error_points_slash :
    evaluate " 8 / (3-3)" = .error (.divisionByZero 3) ∧
    ∃ before after, " 8 / (3-3)".toList = before ++ after ∧ (∀ c ∈ before, c.val ≤ 127) ∧
      PointsAt before after (.divisionByZero 3) := by
  have failed : evaluate " 8 / (3-3)" = .error (.divisionByZero 3) := by decide +kernel
  obtain ⟨_, _, points⟩ := evaluate_error_points failed
  obtain ⟨before, after, split, ascii, _, _, _, pointsAt⟩ := points (by simp)
  exact ⟨failed, before, after, split, ascii, pointsAt⟩

end Calculator
