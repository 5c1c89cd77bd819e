import Calculator.Proofs.Engine.SourceOrder
import Calculator.Proofs.Grammar.Offsets
import Calculator.Proofs.Scanning.Spacing

/-!
# Sources of the same tokens

Two sources with the same sequence of tokens have the same outcome, where the offset of a lexeme in the
one source corresponds to the offset in the other of the lexeme with the same index. The tokens of a
source do not depend on the spacing of its words.
-/

set_option autoImplicit false

namespace Calculator

open Grammar Scanning

/-! ## Corresponding lexemes -/

theorem exists_mapOffset {lexemes lexemes' : List Lexeme}
    (increasing : lexemes.Pairwise fun earlier later => earlier.offset < later.offset)
    (same : lexemes.map Lexeme.token = lexemes'.map Lexeme.token) :
    ∃ f, lexemes' = lexemes.map (Lexeme.mapOffset f) := by
  induction lexemes generalizing lexemes' with
  | nil => exact ⟨id, by simpa using same⟩
  | cons first rest ih =>
      cases lexemes' with
      | nil => cases same
      | cons first' rest' =>
          obtain ⟨sameFirst, sameRest⟩ := List.cons.inj same
          obtain ⟨later, increasing⟩ := List.pairwise_cons.mp increasing
          obtain ⟨f, rfl⟩ := ih increasing sameRest
          -- No later lexeme has the offset of the first, so `f` may be changed there.
          refine ⟨Function.update f first.offset first'.offset, ?_⟩
          have restMapped : rest.map (Lexeme.mapOffset f) =
              rest.map (Lexeme.mapOffset (Function.update f first.offset first'.offset)) := by
            apply List.map_congr_left
            intro lexeme member
            have other : lexeme.offset ≠ first.offset := (later lexeme member).ne'
            rw [Lexeme.mapOffset, Lexeme.mapOffset, Function.update_of_ne other]
          rw [List.map_cons, ← restMapped, Lexeme.mapOffset, Function.update_self, sameFirst]

theorem increasing_of_tokenize {source : String} {lexemes : List Lexeme}
    (tokenized : tokenize source = .ok lexemes) :
    lexemes.Pairwise fun earlier later => earlier.offset < later.offset := by
  obtain ⟨read, partition, rfl⟩ := exists_partition_of_tokenize tokenized
  refine List.pairwise_append.mpr ⟨partition.increasing, List.pairwise_singleton .., ?_⟩
  intro lexeme member marker isMarker
  rw [List.mem_singleton.mp isMarker]
  obtain ⟨before, word, after, split, munches, found⟩ := partition.located member
  have filled := List.length_pos_iff.mpr munches.ne_nil
  rw [found, ← byteSize_toList, split, byteSize_append, byteSize_append,
    byteSize_eq_length munches.ascii]
  simp only
  omega

/-! ## Corresponding outcomes -/

theorem apply_mapPosition (f : Nat → Nat) (operator : BinaryOperator) (left right : Float)
    (position : Nat) :
    operator.apply left right (f position) =
      (operator.apply left right position).mapError (EvalError.mapPosition f) := by
  cases operator with
  | div =>
      simp only [BinaryOperator.apply]
      split <;> rfl
  | _ => rfl

theorem value_mapPosition (f : Nat → Nat) (e : Expr) :
    (e.mapPosition f).value = e.value.mapError (EvalError.mapPosition f) := by
  induction e with
  | literal => rfl
  | unary operator operand position ih =>
      rw [Expr.mapPosition, Expr.value, Expr.value, ih]
      cases operand.value <;> rfl
  | binary operator left right position leftIH rightIH =>
      rw [Expr.mapPosition, Expr.value, Expr.value, leftIH, rightIH]
      cases left.value with
      | error error => rfl
      | ok leftResult =>
          cases right.value with
          | error error => rfl
          | ok rightResult => exact apply_mapPosition f operator leftResult rightResult position

theorem eval_mapPosition (f : Nat → Nat) (e : Expr) :
    (e.mapPosition f).eval = e.eval.mapError (EvalError.mapPosition f) := by
  rw [Expr.eval_eq_value, Expr.eval_eq_value, value_mapPosition]

section Tokenized

variable {source source' : String} {lexemes : List Lexeme} {f : Nat → Nat}
  (tokenized : tokenize source = .ok lexemes)

include tokenized

theorem parse_mapOffset (tokenized' : tokenize source' = .ok (lexemes.map (Lexeme.mapOffset f))) :
    parse source' = mapAnswer f (parse source) := by
  rw [parse_of_tokenize tokenized, parse_of_tokenize tokenized', parseLexemes_mapOffset]

theorem evaluate_mapOffset
    (tokenized' : tokenize source' = .ok (lexemes.map (Lexeme.mapOffset f))) :
    evaluate source' = (evaluate source).mapError (EvalError.mapPosition f) := by
  rw [evaluate, evaluate, parse_mapOffset tokenized tokenized']
  cases parse source with
  | error error => rfl
  | ok e => exact eval_mapPosition f e

/-! ## Positions -/

theorem inorder_subset_of_parse {e : Expr} (parsed : parse source = .ok e) :
    e.inorder ⊆ lexemes := by
  obtain ⟨read, _, inorder, same⟩ := exists_partition_of_parse parsed
  cases same.symm.trans tokenized
  rw [inorder]
  exact fun lexeme member => List.mem_append_left _ (List.mem_of_mem_filter member)

theorem position_mem_of_evaluate {error : EvalError} (failed : evaluate source = .error error) :
    ∀ position ∈ error.position?, position ∈ lexemes.map Lexeme.offset := by
  cases parsed : parse source with
  | error fault =>
      rw [evaluate, parsed] at failed
      cases failed
      rw [parse_of_tokenize tokenized] at parsed
      exact position_mem_of_parseLexemes parsed
  | ok e =>
      have evaluated : e.eval = .error error := by rwa [evaluate, parsed] at failed
      obtain ⟨_, rfl, slash⟩ := Expr.exists_slash_of_eval evaluated
      intro position located
      cases located
      exact List.mem_map_of_mem (inorder_subset_of_parse tokenized parsed slash)

end Tokenized

/-! ## Tokens of words -/

theorem tokenize_iff_spacing {source : String} {tokens : List Token} :
    (∃ lexemes, tokenize source = .ok lexemes ∧ lexemes.map Lexeme.token = tokens) ↔
      ∃ words inner, tokens = inner ++ [.endMarker] ∧
        List.Forall₂ (Munches · · []) words inner ∧ Spacing words source.toList := by
  constructor
  · intro scanned
    obtain ⟨lexemes, tokenized, rfl⟩ := scanned
    obtain ⟨read, partition, rfl⟩ := exists_partition_of_tokenize tokenized
    obtain ⟨words, texts, spacing⟩ := partition.exists_spacing
    exact ⟨words, _, List.map_append, texts, spacing⟩
  · intro spaced
    obtain ⟨words, inner, rfl, texts, spacing⟩ := spaced
    obtain ⟨read, partition, rfl⟩ := spacing.exists_partition texts
    exact ⟨_, partition.tokenize, List.map_append⟩

/-- Sources of the same tokens have the same outcome but for the offsets: those of the one source stand
where those of the other stood, lexeme by lexeme. Which tokens a source has, its words tell, whatever
separators are around them. -/
theorem outcome_of_same_tokens :
    (∀ (source source' : String) (lexemes lexemes' : List Lexeme),
      tokenize source = .ok lexemes → tokenize source' = .ok lexemes' →
      lexemes.map Lexeme.token = lexemes'.map Lexeme.token →
      ∃ f, lexemes' = lexemes.map (Lexeme.mapOffset f) ∧
        parse source' = mapAnswer f (parse source) ∧
        evaluate source' = (evaluate source).mapError (EvalError.mapPosition f) ∧
        (∀ e, parse source = .ok e → e.inorder ⊆ lexemes) ∧
        ∀ error, evaluate source = .error error →
          ∀ position ∈ error.position?, position ∈ lexemes.map Lexeme.offset) ∧
    ∀ (source : String) (tokens : List Token),
      (∃ lexemes, tokenize source = .ok lexemes ∧ lexemes.map Lexeme.token = tokens) ↔
        ∃ words inner, tokens = inner ++ [.endMarker] ∧
          List.Forall₂ (Munches · · []) words inner ∧ Spacing words source.toList := by
  refine ⟨?_, fun _ _ => tokenize_iff_spacing⟩
  intro source source' lexemes lexemes' tokenized tokenized' same
  obtain ⟨f, rfl⟩ := exists_mapOffset (increasing_of_tokenize tokenized) same
  exact ⟨f, rfl, parse_mapOffset tokenized tokenized', evaluate_mapOffset tokenized tokenized',
    fun _ => inorder_subset_of_parse tokenized, fun _ => position_mem_of_evaluate tokenized⟩

/-- With other blanks, and one more digit, the same division fails at its new place. -/
theorem outcome_of_same_tokens_slash :
    evaluate "1/(2-2)" = .error (.divisionByZero 1) ∧
    evaluate " 1.0 /( 2 - 2)" = .error (.divisionByZero 5) := by
  have failed : evaluate "1/(2-2)" = .error (.divisionByZero 1) := by decide +kernel
  have tokenized : tokenize "1/(2-2)" = .ok [⟨.number 1, 0⟩, ⟨.slash, 1⟩, ⟨.leftParen, 2⟩,
      ⟨.number 2, 3⟩, ⟨.minus, 4⟩, ⟨.number 2, 5⟩, ⟨.rightParen, 6⟩, ⟨.endMarker, 7⟩] := by
    decide +kernel
  have tokenized' : tokenize " 1.0 /( 2 - 2)" = .ok [⟨.number 1, 1⟩, ⟨.slash, 5⟩, ⟨.leftParen, 6⟩,
      ⟨.number 2, 8⟩, ⟨.minus, 10⟩, ⟨.number 2, 12⟩, ⟨.rightParen, 13⟩, ⟨.endMarker, 14⟩] := by
    decide +kernel
  obtain ⟨f, corresponds, _, same, _⟩ :=
    outcome_of_same_tokens.1 _ _ _ _ tokenized tokenized' rfl
  have slash : 5 = f 1 := by simp_all [Lexeme.mapOffset]
  rw [failed] at same
  exact ⟨failed, slash ▸ same⟩

end Calculator
