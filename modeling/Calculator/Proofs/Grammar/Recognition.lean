import Calculator.Proofs.Grammar.Nesting
import Calculator.Proofs.Grammar.Sentence

/-!
# Recognition

Parsing accepts exactly the sentences of the grammar that stand before an end marker, and returns the
tree of their derivation.
-/

set_option autoImplicit false

namespace Calculator.Grammar

theorem Derives.parseLexemes {phrase : List Lexeme} {e : Expr} {depth : Nat}
    (derives : Derives .sum phrase e depth) (shallow : depth ≤ 512) {marker : Lexeme}
    (ended : marker.token = .endMarker) (rest : List Lexeme) :
    parseLexemes (phrase ++ marker :: rest) = .ok e := by
  have stops : Category.sum.Stops (marker :: rest).head? := by
    apply Category.stops_of_not_joins
    intro lexeme next category operator joins
    cases next
    rw [ended] at joins
    cases joins
  have run : (Category.sum.parser Parser.maxNesting).run (phrase ++ marker :: rest) =
      (.ok e, marker :: rest) := derives.run_of_stops shallow stops
  cases phrase with
  | nil => exact absurd rfl derives.ne_nil
  | cons first phrase =>
      have proper := (derives.proper first List.mem_cons_self).1
      rw [List.cons_append] at run ⊢
      rw [parseLexemes_cons proper run]
      simp [conclude, ended]

/-- An expression that is too deep is refused for its nesting, at some lexeme. -/
theorem Derives.parseLexemes_of_lt {input : List Lexeme} {e : Expr} {depth : Nat}
    (derives : Derives .sum input e depth) (deep : 512 < depth) (rest : List Lexeme) :
    ∃ position, Calculator.parseLexemes (input ++ rest) = .error (.nestingTooDeep position 512) := by
  obtain ⟨before, opening, after, full⟩ := derives.exists_full 512 deep
  have run := full.run rest
  cases input with
  | nil => exact absurd rfl derives.ne_nil
  | cons first input =>
      have proper := (derives.proper first List.mem_cons_self).1
      exact ⟨opening.offset, parseLexemes_cons proper run⟩

theorem derives_of_parseLexemes {input : List Lexeme} {e : Expr}
    (parsed : parseLexemes input = .ok e) :
    ∃ phrase marker rest depth, input = phrase ++ marker :: rest ∧
      marker.token = .endMarker ∧ EndFree phrase ∧ Derives .sum phrase e depth ∧ depth ≤ 512 := by
  cases input with
  | nil => cases parsed
  | cons first input =>
      by_cases empty : first.token = .endMarker
      · simp [Calculator.parseLexemes, empty] at parsed
      · rcases run : (Category.sum.parser Parser.maxNesting).run (first :: input) with
          ⟨result, left⟩
        rw [parseLexemes_cons empty run] at parsed
        obtain ⟨rfl, marker, next, ended⟩ := conclude_eq_ok parsed
        obtain ⟨phrase, split, outcome⟩ := run_iff.mp run
        obtain ⟨rest, rfl⟩ := List.head?_eq_some_iff.mp next
        cases outcome with
        | read derives shallow =>
            exact ⟨phrase, marker, rest, _, split, ended,
              fun lexeme member => (derives.proper lexeme member).1, derives, shallow⟩

theorem derives_of_endFree {input : List Lexeme} {marker : Lexeme} {e : Expr}
    (endFree : EndFree input) (ended : marker.token = .endMarker)
    (parsed : parseLexemes (input ++ [marker]) = .ok e) :
    ∃ depth, Derives .sum input e depth ∧ depth ≤ 512 := by
  obtain ⟨phrase, other, rest, depth, split, otherEnded, phraseEndFree, derives, shallow⟩ :=
    derives_of_parseLexemes parsed
  rcases append_cons_cases split with ⟨more, rfl⟩ | ⟨rfl, _⟩ | ⟨more, rfl, _⟩
  · exact absurd otherEnded (endFree other (by simp))
  · exact ⟨depth, derives, shallow⟩
  · exact absurd ended (phraseEndFree marker (by simp))

theorem parseLexemes_congr_after {phrase : List Lexeme} (endFree : EndFree phrase)
    {marker : Lexeme} (ended : marker.token = .endMarker) (rest rest' : List Lexeme) :
    parseLexemes (phrase ++ marker :: rest) = parseLexemes (phrase ++ marker :: rest') := by
  cases phrase with
  | nil => simp [Calculator.parseLexemes, ended]
  | cons first phrase =>
      have proper := endFree first List.mem_cons_self
      rcases run : (Category.sum.parser Parser.maxNesting).run
        (first :: (phrase ++ marker :: rest)) with ⟨result, left⟩
      obtain ⟨consumed, split, outcome⟩ := run_iff.mp run
      have consumedEndFree : EndFree consumed := fun lexeme member =>
        (outcome.proper lexeme member).1
      rw [← List.cons_append] at split
      obtain ⟨tail, phraseSplit, rfl⟩ := consumedEndFree.split ended split
      have sameNext : (tail ++ marker :: rest).head? = (tail ++ marker :: rest').head? := by
        cases tail <;> rfl
      rw [sameNext] at outcome
      have otherRun : (Category.sum.parser Parser.maxNesting).run
          (first :: (phrase ++ marker :: rest')) = (result, tail ++ marker :: rest') :=
        run_iff.mpr ⟨consumed, by simp [← List.cons_append, phraseSplit], outcome⟩
      rw [List.cons_append, List.cons_append, parseLexemes_cons proper run,
        parseLexemes_cons proper otherRun, sameNext]

/-- Parsing gives the tree of the one derivation of what stands before the first end marker, and
fails if there is none; what follows that marker changes neither. -/
theorem parseLexemes_recognizes :
    (∀ input e, parseLexemes input = .ok e ↔
      ∃ phrase marker rest depth, input = phrase ++ marker :: rest ∧
        marker.token = .endMarker ∧ EndFree phrase ∧
        Derives .sum phrase e depth ∧ depth ≤ 512) ∧
    (∀ phrase e other depth otherDepth,
      Derives .sum phrase e depth → Derives .sum phrase other otherDepth → e = other) ∧
    ∀ phrase marker rest rest', EndFree phrase → marker.token = .endMarker →
      parseLexemes (phrase ++ marker :: rest) = parseLexemes (phrase ++ marker :: rest') := by
  refine ⟨fun input e => ⟨derives_of_parseLexemes, ?_⟩,
    fun _ _ _ _ _ derives other => derives.unique other,
    fun _ _ rest rest' endFree ended => parseLexemes_congr_after endFree ended rest rest'⟩
  intro derivation
  obtain ⟨phrase, marker, rest, depth, rfl, ended, _, derives, shallow⟩ := derivation
  exact derives.parseLexemes shallow ended rest

/-- `8-3-2` is read from the left, whatever stands after its end marker. -/
theorem parseLexemes_recognizes_chain :
    parseLexemes [⟨.number 8, 0⟩, ⟨.minus, 1⟩, ⟨.number 3, 2⟩, ⟨.minus, 3⟩, ⟨.number 2, 4⟩,
        ⟨.endMarker, 5⟩, ⟨.star, 9⟩] =
      .ok (.binary .sub (.binary .sub (.literal 8 0) (.literal 3 2) 1) (.literal 2 4) 3) := by
  have eight : Derives .sum [⟨.number 8, 0⟩] (.literal 8 0) 0 :=
    .single .sums (.single .products .number)
  have difference : Derives .sum [⟨.number 8, 0⟩, ⟨.minus, 1⟩, ⟨.number 3, 2⟩]
      (.binary .sub (.literal 8 0) (.literal 3 2) 1) 0 :=
    .joined .sums .minus eight (.single .products .number)
  have whole : Derives .sum
      [⟨.number 8, 0⟩, ⟨.minus, 1⟩, ⟨.number 3, 2⟩, ⟨.minus, 3⟩, ⟨.number 2, 4⟩]
      (.binary .sub (.binary .sub (.literal 8 0) (.literal 3 2) 1) (.literal 2 4) 3) 0 :=
    .joined .sums .minus difference (.single .products .number)
  have endFree : EndFree
      [⟨.number 8, 0⟩, ⟨.minus, 1⟩, ⟨.number 3, 2⟩, ⟨.minus, 3⟩, ⟨.number 2, 4⟩] := by
    simp [EndFree]
  exact (parseLexemes_recognizes.1 _ _).mpr
    ⟨_, ⟨.endMarker, 5⟩, [⟨.star, 9⟩], 0, rfl, rfl, endFree, whole, by decide⟩

end Calculator.Grammar
