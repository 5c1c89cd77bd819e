import Calculator.Proofs.Number.PlainText
import Calculator.Proofs.Scanning.Partition

/-!
# Spacing of words

A source is the texts of its tokens, its words, with separators around them. Which separators these are
does not matter, as long as two numbers do not touch: every such spacing of the words is read as the
same tokens.
-/

set_option autoImplicit false

namespace Calculator.Scanning

open Layout

/-- Whether a word begins with a digit, as those of numbers do. -/
def Numeric (word : List Char) : Prop :=
  ∃ c ∈ word.head?, c.isDigit = true

/-- `Spacing words text`: the text consists of the words and of separators before, between and after
them, at least one between two numbers. -/
inductive Spacing : List (List Char) → List Char → Prop where
  | last {gap} : (∀ c ∈ gap, isSeparator c = true) → Spacing [] gap
  | word {gap word words text} :
      (∀ c ∈ gap, isSeparator c = true) →
      (Numeric word → ∀ next ∈ words.head?, Numeric next →
        ∃ c ∈ text.head?, isSeparator c = true) →
      Spacing words text → Spacing (word :: words) (gap ++ word ++ text)

/-! ## Words and what follows them -/

theorem Digits.numeric {digits : List Char} (isDigits : Digits digits) : Numeric digits := by
  obtain ⟨filled, all⟩ := isDigits
  cases digits with
  | nil => exact absurd rfl filled
  | cons first digits => exact ⟨first, rfl, all first List.mem_cons_self⟩

theorem Numeric.append {word : List Char} (numeric : Numeric word) (more : List Char) :
    Numeric (word ++ more) := by
  obtain ⟨c, head, digit⟩ := numeric
  exact ⟨c, by simp [List.head?_append, Option.mem_def.mp head], digit⟩

namespace Munches

variable {word following : List Char} {token : Token}

theorem endsBefore_of_numeric (munches : Munches word token following) (numeric : Numeric word) :
    EndsBefore Char.isDigit following := by
  obtain ⟨c, head, digit⟩ := numeric
  cases munches with
  | whole _ ends => exact ends
  | decimal _ _ ends => exact ends
  | _ =>
      cases head
      cases digit

theorem head_of_not_numeric (munches : Munches word token following) (other : ¬ Numeric word) :
    ∀ c ∈ word.head?, (c.isDigit || c == '.') = false := by
  intro c head
  cases munches with
  | whole isDigits => exact absurd isDigits.numeric other
  | decimal isDigits => exact absurd (isDigits.numeric.append _) other
  | _ =>
      cases head
      rfl

theorem extend (munches : Munches word token []) (ends : Numeric word → EndsNumeral following) :
    Munches word token following := by
  cases munches with
  | plus => exact .plus
  | minus => exact .minus
  | star => exact .star
  | slash => exact .slash
  | leftParen => exact .leftParen
  | rightParen => exact .rightParen
  | whole isDigits =>
      have stops := ends isDigits.numeric
      exact .whole isDigits stops.isDigit fun tail point => absurd point (stops.point tail)
  | decimal isDigits isFraction =>
      exact .decimal isDigits isFraction (ends (isDigits.numeric.append _)).isDigit

end Munches

theorem not_numeral_of_isSeparator {c : Char} (separates : isSeparator c = true) :
    (c.isDigit || c == '.') = false := by
  simp only [isSeparator, Bool.or_eq_true, beq_iff_eq] at separates
  rcases separates with (((rfl | rfl) | rfl) | rfl) | rfl <;> rfl

/-! ## Spacings and covers -/

namespace Spacing

variable {words : List (List Char)} {text word : List Char} {token : Token} {tokens : List Token}

theorem separated (spacing : Spacing words text) (munches : Munches word token text)
    (numeric : Numeric word) :
    ∀ next ∈ words.head?, Numeric next → ∃ c ∈ text.head?, isSeparator c = true := by
  intro next head nextNumeric
  have ends := munches.endsBefore_of_numeric numeric
  cases spacing with
  | last => cases head
  | @word gap _ _ rest separators =>
      cases head
      cases gap with
      | cons first gap => exact ⟨first, rfl, separators first List.mem_cons_self⟩
      | nil =>
          -- The first number would go on into the next one.
          obtain ⟨c, first, digit⟩ := nextNumeric.append rest
          have stopped := ends c first
          rw [digit] at stopped
          cases stopped

theorem endsNumeral (spacing : Spacing words text) (read : List.Forall₂ (Munches · · []) words tokens)
    (separated : ∀ next ∈ words.head?, Numeric next → ∃ c ∈ text.head?, isSeparator c = true) :
    EndsNumeral text := by
  intro c head
  by_cases separates : isSeparator c = true
  · exact not_numeral_of_isSeparator separates
  · cases spacing with
    | last separators => exact absurd (separators c (List.mem_of_mem_head? head)) separates
    | @word gap next _ rest separators =>
        cases gap with
        | cons first gap =>
            cases head
            exact absurd (separators c List.mem_cons_self) separates
        | nil =>
            cases read with
            | cons munches _ =>
                have other : ¬ Numeric next := by
                  intro numeric
                  obtain ⟨first, firstHead, firstSeparates⟩ := separated next rfl numeric
                  rw [Option.mem_unique head firstHead] at separates
                  exact separates firstSeparates
                rw [List.nil_append, List.head?_append_of_ne_nil _ munches.ne_nil] at head
                exact munches.head_of_not_numeric other c head

theorem exists_covers (spacing : Spacing words text)
    (read : List.Forall₂ (Munches · · []) words tokens) (offset : Nat) :
    ∃ covered gap lexemes, text = covered ++ gap ∧ (∀ c ∈ gap, isSeparator c = true) ∧
      Covers offset covered lexemes gap ∧ lexemes.map Lexeme.token = tokens := by
  induction spacing generalizing tokens offset with
  | @last gap separators =>
      cases read
      exact ⟨[], gap, [], rfl, separators, .nil, rfl⟩
  | @word gap word words text separators touches spacing ih =>
      cases read with
      | cons munches read =>
          have ends : Numeric word → EndsNumeral text := fun numeric =>
            spacing.endsNumeral read (touches numeric)
          obtain ⟨covered, lastGap, lexemes, rfl, lastSeparators, covers, same⟩ :=
            ih read (offset + byteSize gap + byteSize word)
          exact ⟨gap ++ word ++ covered, lastGap, _, by simp, lastSeparators,
            .cons separators (munches.extend ends) covers, by rw [List.map_cons, same]⟩

theorem exists_partition (spacing : Spacing words text)
    (read : List.Forall₂ (Munches · · []) words tokens) :
    ∃ lexemes, Partition text lexemes ∧ lexemes.map Lexeme.token = tokens := by
  obtain ⟨covered, gap, lexemes, rfl, separators, covers, same⟩ := spacing.exists_covers read 0
  exact ⟨lexemes, covers.partition separators, same⟩

end Spacing

theorem Covers.exists_spacing {offset : Nat} {text gap : List Char} {lexemes : List Lexeme}
    (covers : Covers offset text lexemes gap) (separators : ∀ c ∈ gap, isSeparator c = true) :
    ∃ words, List.Forall₂ (Munches · · []) words (lexemes.map Lexeme.token) ∧
      Spacing words (text ++ gap) := by
  induction covers with
  | nil => exact ⟨[], .nil, .last separators⟩
  | @cons offset inner word token rest lexemes following innerSeparators munches _ ih =>
      obtain ⟨words, read, spacing⟩ := ih separators
      have alone : Munches word token ([] ++ (rest ++ following)) := munches
      refine ⟨word :: words, .cons alone.of_append read, ?_⟩
      rw [List.append_assoc]
      exact .word innerSeparators (spacing.separated munches) spacing

theorem Partition.exists_spacing {source : List Char} {lexemes : List Lexeme}
    (partition : Partition source lexemes) :
    ∃ words, List.Forall₂ (Munches · · []) words (lexemes.map Lexeme.token) ∧
      Spacing words source := by
  obtain ⟨text, gap, rfl, covers, separators⟩ := partition.covered
  exact covers.exists_spacing separators

end Calculator.Scanning
