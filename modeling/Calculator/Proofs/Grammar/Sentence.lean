import Calculator.Proofs.Grammar.Reading

/-!
# Sentences

A whole expression whose prefix operators and groups enclose one another within the limit, what may
stand before the end of one, and how `parseLexemes` is composed of one run of the parser of sums and
a look at the lexeme after it.
-/

set_option autoImplicit false

namespace Calculator.Grammar

def EndFree (input : List Lexeme) : Prop :=
  ∀ lexeme ∈ input, lexeme.token ≠ .endMarker

/-- An expression in which at most 512 prefix operators and groups enclose one another. -/
def Sentence (input : List Lexeme) : Prop :=
  ∃ e depth, Derives .sum input e depth ∧ depth ≤ 512

/-- Whether some sentence begins with `input`. -/
def Viable (input : List Lexeme) : Prop :=
  ∃ rest, Sentence (input ++ rest)

/-- Whether an expression of any depth begins with `input`. -/
def ViableAtAnyDepth (input : List Lexeme) : Prop :=
  ∃ rest e depth, Derives .sum (input ++ rest) e depth

theorem Viable.of_append {input more : List Lexeme} (viable : Viable (input ++ more)) :
    Viable input := by
  obtain ⟨rest, sentence⟩ := viable
  exact ⟨more ++ rest, by rwa [← List.append_assoc]⟩

theorem Sentence.viable {input : List Lexeme} (sentence : Sentence input) : Viable input :=
  ⟨[], by rwa [List.append_nil]⟩

theorem Derives.unique {category : Category} {input : List Lexeme} {e other : Expr}
    {depth otherDepth : Nat} (derives : Derives category input e depth)
    (otherDerives : Derives category input other otherDepth) : e = other := by
  have stops : category.Stops ([] : List Lexeme).head? := nofun
  have run := derives.run_of_stops (Nat.le_max_left depth otherDepth) stops
  have otherRun := otherDerives.run_of_stops (Nat.le_max_right depth otherDepth) stops
  rw [run] at otherRun
  cases otherRun
  rfl

theorem append_cons_cases {α : Type} {left right before after : List α} {middle item : α}
    (split : left ++ middle :: right = before ++ item :: after) :
    (∃ more, left = before ++ item :: more) ∨ (before = left ∧ item = middle) ∨
      ∃ more, before = left ++ middle :: more ∧ right = more ++ item :: after := by
  rcases List.append_eq_append_iff.mp split with ⟨more, rfl, rest⟩ | ⟨more, rfl, rest⟩
  · cases more with
    | nil =>
        cases rest
        exact .inr (.inl ⟨by simp, rfl⟩)
    | cons first more =>
        cases rest
        exact .inr (.inr ⟨more, rfl, rfl⟩)
  · cases more with
    | nil =>
        cases rest
        exact .inr (.inl ⟨by simp, rfl⟩)
    | cons first more =>
        cases rest
        exact .inl ⟨more, rfl⟩

/-- A list splits in one way into lexemes other than the end marker and the rest from one on. -/
theorem EndFree.split {consumed left phrase rest : List Lexeme} {marker : Lexeme}
    (endFree : EndFree consumed) (ended : marker.token = .endMarker)
    (split : phrase ++ marker :: rest = consumed ++ left) :
    ∃ tail, phrase = consumed ++ tail ∧ left = tail ++ marker :: rest := by
  rcases List.append_eq_append_iff.mp split with ⟨more, rfl, markerSplit⟩ | ⟨tail, rfl, leftSplit⟩
  · cases more with
    | nil => exact ⟨[], by simp, by simpa using markerSplit.symm⟩
    | cons first more =>
        obtain ⟨rfl, _⟩ := List.cons.inj markerSplit
        exact absurd ended (endFree marker (by simp))
  · exact ⟨tail, rfl, leftSplit⟩

/-- What is made of the answer for the expression, and of the lexeme after it. -/
def conclude : Except EvalError Expr → Option Lexeme → Except EvalError Expr
  | .error error, _ => .error error
  | .ok _, none => .error (.internal .tokenStreamExhausted)
  | .ok e, some next =>
      match next.token with
      | .endMarker => .ok e
      | found => .error (.unexpectedToken next.offset .endOfExpression found)

theorem conclude_eq_ok {result : Except EvalError Expr} {next : Option Lexeme} {e : Expr}
    (concluded : conclude result next = .ok e) :
    result = .ok e ∧ ∃ marker ∈ next, marker.token = .endMarker := by
  unfold conclude at concluded
  split at concluded
  · cases concluded
  · cases concluded
  · split at concluded
    · rename_i ended
      cases concluded
      exact ⟨rfl, _, rfl, ended⟩
    · cases concluded

theorem parseLexemes_cons {first : Lexeme} {input left : List Lexeme}
    {result : Except EvalError Expr} (proper : first.token ≠ .endMarker)
    (run : (Category.sum.parser Parser.maxNesting).run (first :: input) = (result, left)) :
    parseLexemes (first :: input) = conclude result left.head? := by
  have sumRun : (Parser.sum (Parser.factorWithin 0)).run (first :: input) = (result, left) := run
  simp only [parseLexemes, if_neg proper, sumRun]
  cases result with
  | error error => rfl
  | ok e => cases left <;> rfl

end Calculator.Grammar
