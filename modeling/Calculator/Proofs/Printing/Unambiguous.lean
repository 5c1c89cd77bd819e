import Calculator.Proofs.Number.ReadBack
import Calculator.Proofs.Printing.RoundTrip

/-!
# Unambiguous texts of trees

The parenthesized text of a tree tells its shape, operators and literals, also where it is no expression
that can be parsed. A minus sign may belong to a prefix operator or to a literal; the character behind
the number decides, a parenthesis or a space.
-/

set_option autoImplicit false

namespace Calculator

open Scanning Layout

theorem UnaryOperator.symbol_inj {operator operator' : UnaryOperator}
    (same : operator.symbol = operator'.symbol) : operator = operator' := by
  cases operator <;> cases operator' <;> simp_all [UnaryOperator.symbol]

theorem BinaryOperator.symbol_inj {operator operator' : BinaryOperator}
    (same : operator.symbol = operator'.symbol) : operator = operator' := by
  cases operator <;> cases operator' <;> simp_all [BinaryOperator.symbol]

namespace Expr

/-! ## Texts as characters -/

section Characters

variable (position : Nat) (following : List Char)

theorem toList_write_literal (value : Float) :
    (Form.parenthesized.write (.literal value position)).toList = (plain.text value).toList := by
  rw [Form.write_literal]

theorem toList_write_unary (operator : UnaryOperator) (operand : Expr) :
    (Form.parenthesized.write (.unary operator operand position)).toList ++ following =
      '(' :: operator.symbol :: ((Form.parenthesized.write operand).toList ++ ')' :: following) := by
  simp [Form.write_unary]

theorem toList_write_binary (operator : BinaryOperator) (left right : Expr) :
    (Form.parenthesized.write (.binary operator left right position)).toList ++ following =
      '(' :: ((Form.parenthesized.write left).toList ++ ' ' :: operator.symbol :: ' ' ::
        ((Form.parenthesized.write right).toList ++ ')' :: following)) := by
  simp [Form.write_binary]

end Characters

/-- Neither a character of a number nor an opening parenthesis stands at the head of `following`. -/
def EndsTree (following : List Char) : Prop :=
  EndsBefore (fun c => isGlyph c || c == '(') following

theorem EndsTree.isGlyph {following : List Char} (ends : EndsTree following) :
    EndsBefore isGlyph following :=
  ends.mono fun c glyph => by simp [glyph]

theorem EndsTree.of_head {c : Char} (neither : (Layout.isGlyph c || c == '(') = false)
    (following : List Char) : EndsTree (c :: following) :=
  EndsBefore.of_head neither following

/-! ## Trees in front of other text -/

section Following

variable {following following' : List Char} (ends : EndsTree following) (ends' : EndsTree following')

include ends

theorem toList_text_ne_group (value : Float) (tail : List Char) :
    (plain.text value).toList ++ following ≠ '(' :: tail := by
  have glyphs := glyphs_text plain value
  cases text : (plain.text value).toList with
  | nil => exact ends.ne_cons rfl tail
  | cons c digits =>
      intro same
      have glyph : Layout.isGlyph c = true := glyphs c (by simp [text])
      obtain ⟨rfl, _⟩ := List.cons.inj same
      cases glyph

/-- The text of a tree begins with a run of characters of numbers. It ends with the text or, where it is
empty, before a parenthesis. -/
theorem exists_run_write (e : Expr) :
    ∃ run rest, (Form.parenthesized.write e).toList ++ following = run ++ rest ∧ Glyphs run ∧
      EndsBefore Layout.isGlyph rest ∧ (rest = following ∨ run = [] ∧ ∃ tail, rest = '(' :: tail) := by
  have parenthesis (tail : List Char) : EndsBefore Layout.isGlyph ('(' :: tail) := .of_head rfl tail
  cases e with
  | literal value position =>
      rw [toList_write_literal]
      exact ⟨_, _, rfl, glyphs_text plain value, ends.isGlyph, .inl rfl⟩
  | unary operator operand position =>
      rw [toList_write_unary]
      exact ⟨[], _, rfl, nofun, parenthesis _, .inr ⟨rfl, _, rfl⟩⟩
  | binary operator left right position =>
      rw [toList_write_binary]
      exact ⟨[], _, rfl, nofun, parenthesis _, .inr ⟨rfl, _, rfl⟩⟩

end Following

/-- A sign in front of an operand is not taken for that of a left operand: the number behind it ends
before a parenthesis, and not before a space. -/
theorem signed_ne_operation (operator : UnaryOperator) (operand left : Expr)
    (following more : List Char) :
    operator.symbol :: ((Form.parenthesized.write operand).toList ++ ')' :: following) ≠
      (Form.parenthesized.write left).toList ++ ' ' :: more := by
  obtain ⟨run, rest, split, glyphs, ends, begins⟩ :=
    exists_run_write (.of_head rfl following : EndsTree (')' :: following)) operand
  obtain ⟨run', rest', split', glyphs', ends', begins'⟩ :=
    exists_run_write (.of_head rfl more : EndsTree (' ' :: more)) left
  rw [split, split']
  intro same
  have signed : Glyphs (operator.symbol :: run) := by
    have sign : Glyphs [operator.symbol] := by cases operator <;> decide
    exact sign.append glyphs
  obtain ⟨runs, rests⟩ := ends.append_inj ends' signed glyphs' same
  rcases begins' with rfl | ⟨rfl, _⟩
  · rcases begins with rfl | ⟨_, tail, rfl⟩
    · cases rests
    · cases rests
  · cases runs

theorem write_append_inj {a b : Expr} {following following' : List Char} (ends : EndsTree following)
    (ends' : EndsTree following')
    (same : (Form.parenthesized.write a).toList ++ following =
      (Form.parenthesized.write b).toList ++ following') :
    Alike a b ∧ following = following' := by
  induction a generalizing b following following' with
  | literal value position =>
      rw [toList_write_literal] at same
      cases b with
      | literal value' position' =>
          rw [toList_write_literal] at same
          obtain ⟨texts, rests⟩ := ends.isGlyph.append_inj ends'.isGlyph (glyphs_text plain value)
            (glyphs_text plain value') same
          obtain rfl := plain.text_inj.mp (String.toList_inj.mp texts)
          exact ⟨.literal, rests⟩
      | unary =>
          rw [toList_write_unary] at same
          exact absurd same (toList_text_ne_group ends value _)
      | binary =>
          rw [toList_write_binary] at same
          exact absurd same (toList_text_ne_group ends value _)
  | unary operator operand position ih =>
      rw [toList_write_unary] at same
      cases b with
      | literal value' position' =>
          rw [toList_write_literal] at same
          exact absurd same.symm (toList_text_ne_group ends' value' _)
      | unary operator' operand' position' =>
          rw [toList_write_unary] at same
          obtain ⟨symbols, operands⟩ := List.cons.inj (List.cons.inj same).2
          obtain ⟨alike, rests⟩ := ih (.of_head rfl _) (.of_head rfl _) operands
          obtain rfl := UnaryOperator.symbol_inj symbols
          exact ⟨.unary alike, (List.cons.inj rests).2⟩
      | binary operator' left right position' =>
          rw [toList_write_binary] at same
          exact absurd (List.cons.inj same).2 (signed_ne_operation operator operand left _ _)
  | binary operator left right position leftIH rightIH =>
      rw [toList_write_binary] at same
      cases b with
      | literal value' position' =>
          rw [toList_write_literal] at same
          exact absurd same.symm (toList_text_ne_group ends' value' _)
      | unary operator' operand' position' =>
          rw [toList_write_unary] at same
          exact absurd (List.cons.inj same).2.symm (signed_ne_operation operator' operand' left _ _)
      | binary operator' left' right' position' =>
          rw [toList_write_binary] at same
          obtain ⟨leftAlike, middles⟩ :=
            leftIH (.of_head rfl _) (.of_head rfl _) (List.cons.inj same).2
          obtain ⟨symbols, rights⟩ := List.cons.inj (List.cons.inj middles).2
          obtain ⟨rightAlike, rests⟩ :=
            rightIH (.of_head rfl _) (.of_head rfl _) (List.cons.inj rights).2
          obtain rfl := BinaryOperator.symbol_inj symbols
          exact ⟨.binary leftAlike rightAlike, (List.cons.inj rests).2⟩

/-- Trees have the same text if and only if they agree in shape, operators and literals bit by bit. -/
theorem write_eq_iff_alike (a b : Expr) :
    Form.parenthesized.write a = Form.parenthesized.write b ↔ Alike a b := by
  constructor
  · intro same
    have ends : EndsTree [] := nofun
    have texts := congrArg (·.toList ++ []) same
    exact (write_append_inj ends ends texts).1
  · exact fun alike => alike.write_eq.symm

end Expr

end Calculator
