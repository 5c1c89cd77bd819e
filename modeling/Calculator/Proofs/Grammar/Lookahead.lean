import Calculator.Proofs.Grammar.FirstError
import Calculator.Proofs.Grammar.Limit
import Calculator.Proofs.Grammar.Recognition

/-!
# One lexeme of lookahead

A parser takes no end marker and no blank. Its answer, and how much it takes, depend on the lexemes
that it takes and on the one after them, or on there being none.
-/

set_option autoImplicit false

namespace Calculator.Grammar

/-- `Takes parser input count`: of `input` the parser takes the first `count` lexemes, and it treats
any other input with these lexemes and the same next one alike. -/
structure Takes (parser : Parser) (input : List Lexeme) (count : Nat) : Prop where
  within : count ≤ input.length
  left : (parser.run input).2 = input.drop count
  proper : ∀ lexeme ∈ input.take count, lexeme.token ≠ .endMarker ∧ lexeme.token ≠ .blank
  alike : ∀ other : List Lexeme, other.take count = input.take count →
    other[count]? = input[count]? → parser.run other = ((parser.run input).1, other.drop count)

theorem exists_takes (category : Category) (levels : Nat) (input : List Lexeme) :
    ∃ count, Takes (category.parser levels) input count := by
  rcases run : (category.parser levels).run input with ⟨result, rest⟩
  obtain ⟨consumed, rfl, outcome⟩ := run_iff.mp run
  refine ⟨consumed.length, by simp, ?_, ?_, ?_⟩
  · rw [run, List.drop_left]
  · rw [List.take_left]
    exact outcome.proper
  · intro other sameTaken sameNext
    rw [List.take_left] at sameTaken
    obtain ⟨rest', rfl⟩ : consumed <+: other := sameTaken ▸ List.take_prefix consumed.length other
    have sameHead : rest.head? = rest'.head? := by
      simpa [List.head?_eq_getElem?, List.getElem?_append_right] using sameNext.symm
    rw [run, List.drop_left]
    exact run_iff.mpr ⟨consumed, rfl, sameHead ▸ outcome⟩

theorem not_exhausted_of_endMarker {input : List Lexeme}
    (ended : ∃ lexeme ∈ input, lexeme.token = .endMarker) :
    parseLexemes input ≠ .error (.internal .tokenStreamExhausted) := by
  intro failed
  obtain ⟨marker, member, endMarker⟩ := ended
  by_cases starts : ∃ first ∈ input.head?, first.token = .endMarker
  · cases parseLexemes_of_endMarker failed starts
  · have proper : ∀ first ∈ input.head?, first.token ≠ .endMarker :=
      fun first head ends => starts ⟨first, head, ends⟩
    obtain ⟨endFree, _⟩ := (exhausted_iff failed proper).mp rfl
    exact endFree marker member endMarker

/-- At every depth a parser takes no end marker and no blank, and depends on what it takes and the
next lexeme alone. So nothing after the first end marker has a part in parsing, which never lacks
lexemes where there is one. -/
theorem run_lookahead :
    (∀ (category : Category) (depth : Nat) (input : List Lexeme),
      ∃ count, Takes (category.over (Parser.factorWithin depth)) input count) ∧
    (∀ before marker after after', EndFree before → marker.token = .endMarker →
      parseLexemes (before ++ marker :: after) = parseLexemes (before ++ marker :: after')) ∧
    ∀ input, (∃ lexeme ∈ input, lexeme.token = .endMarker) →
      parseLexemes input ≠ .error (.internal .tokenStreamExhausted) := by
  refine ⟨?_, ?_, fun _ ended => not_exhausted_of_endMarker ended⟩
  · intro category depth input
    rw [category.over_factorWithin]
    exact exists_takes category (512 - depth) input
  · intro before marker after after' endFree ended
    exact parseLexemes_congr_after endFree ended after after'

/-- `1 /` is refused at its end marker, whatever stands after this. -/
theorem run_lookahead_endMarker :
    parseLexemes [⟨.number 1, 0⟩, ⟨.slash, 1⟩, ⟨.endMarker, 2⟩, ⟨.number 3, 4⟩] =
      parseLexemes [⟨.number 1, 0⟩, ⟨.slash, 1⟩, ⟨.endMarker, 2⟩] ∧
    parseLexemes [⟨.number 1, 0⟩, ⟨.slash, 1⟩, ⟨.endMarker, 2⟩] ≠
      .error (.internal .tokenStreamExhausted) := by
  obtain ⟨_, same, never⟩ := run_lookahead
  have endFree : EndFree [⟨.number 1, 0⟩, ⟨.slash, 1⟩] := by simp [EndFree]
  exact ⟨same _ ⟨.endMarker, 2⟩ [⟨.number 3, 4⟩] [] endFree rfl,
    never _ ⟨⟨.endMarker, 2⟩, by simp, rfl⟩⟩

end Calculator.Grammar
