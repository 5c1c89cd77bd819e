import Calculator.Proofs.Number.ReadBack
import Calculator.Proofs.Printing.Form

/-!
# Records of trees

The record form writes every node as a record of its fields, be it by pending pieces or by recursion on
the tree. Every record ends with its own brace, so trees with the same text are the same, positions
included.
-/

set_option autoImplicit false

namespace Calculator

open Scanning Layout

/-- A record under its name, with every field under its own. -/
def recordText (name : String) (fields : List (String × String)) : String :=
  name ++ " \x7b " ++ ", ".intercalate (fields.map fun (field, text) => field ++ ": " ++ text) ++ " \x7d"

theorem UnaryOperator.name_inj {operator operator' : UnaryOperator}
    (same : operator.name = operator'.name) : operator = operator' := by
  cases operator <;> cases operator' <;> simp_all [UnaryOperator.name]

theorem UnaryOperator.name_isAlpha (operator : UnaryOperator) :
    ∀ c ∈ operator.name.toList, c.isAlpha = true := by
  cases operator <;> simp [name]

theorem BinaryOperator.name_inj {operator operator' : BinaryOperator}
    (same : operator.name = operator'.name) : operator = operator' := by
  cases operator <;> cases operator' <;> simp_all [BinaryOperator.name]

theorem BinaryOperator.name_isAlpha (operator : BinaryOperator) :
    ∀ c ∈ operator.name.toList, c.isAlpha = true := by
  cases operator <;> simp [name]

namespace Expr

/-- The record of a tree, where the fields of operands are the records of these. -/
def record : Expr → String
  | .literal value position =>
      recordText "Literal" [("value", Layout.record.text value), ("position", position.repr)]
  | .unary operator operand position =>
      recordText "UnaryOp"
        [("op", operator.name), ("operand", operand.record), ("position", position.repr)]
  | .binary operator left right position =>
      recordText "BinaryOp"
        [("left", left.record), ("op", operator.name), ("right", right.record),
          ("position", position.repr)]

theorem write_eq_record (e : Expr) : Form.record.write e = e.record := by
  induction e with
  | literal value position =>
      rw [Form.record_write_literal, ← String.toList_inj]
      simp [record, recordText, String.intercalate_cons_cons]
  | unary operator operand position ih =>
      rw [Form.record_write_unary, ih, ← String.toList_inj]
      simp [record, recordText, String.intercalate_cons_cons]
  | binary operator left right position leftIH rightIH =>
      rw [Form.record_write_binary, leftIH, rightIH, ← String.toList_inj]
      simp [record, recordText, String.intercalate_cons_cons]

/-! ## Records in front of other text -/

def nodeName : Expr → String
  | .literal _ _ => "Literal"
  | .unary _ _ _ => "UnaryOp"
  | .binary _ _ _ _ => "BinaryOp"

/-- The last field of every record and the end of it, in front of `following`. -/
def positionField (position : Nat) (following : List Char) : List Char :=
  ',' :: (" position: ".toList ++ (position.repr.toList ++ ' ' :: '\x7d' :: following))

section Characters

variable (position : Nat) (following : List Char)

theorem toList_record_literal (value : Float) :
    (Expr.literal value position).record.toList ++ following =
      "Literal \x7b value: ".toList ++
        ((Layout.record.text value).toList ++ positionField position following) := by
  simp [record, recordText, String.intercalate_cons_cons, positionField]

theorem toList_record_unary (operator : UnaryOperator) (operand : Expr) :
    (Expr.unary operator operand position).record.toList ++ following =
      "UnaryOp \x7b op: ".toList ++ (operator.name.toList ++
        ',' :: (" operand: ".toList ++
          (operand.record.toList ++ positionField position following))) := by
  simp [record, recordText, String.intercalate_cons_cons, positionField]

theorem toList_record_binary (operator : BinaryOperator) (left right : Expr) :
    (Expr.binary operator left right position).record.toList ++ following =
      "BinaryOp \x7b left: ".toList ++ (left.record.toList ++
        (", op: ".toList ++ (operator.name.toList ++
          ',' :: (" right: ".toList ++
            (right.record.toList ++ positionField position following))))) := by
  simp [record, recordText, String.intercalate_cons_cons, positionField]

end Characters

theorem positionField_inj {p q : Nat} {following following' : List Char}
    (same : positionField p following = positionField q following') :
    p = q ∧ following = following' := by
  obtain ⟨positions, rests⟩ := repr_append_inj rfl (List.append_cancel_left (List.cons.inj same).2)
  exact ⟨positions, (List.cons.inj rests).2⟩

/-- A name ends at the first character that is no letter. -/
theorem name_append_inj {c : Char} (ends : c.isAlpha = false) {name name' : String}
    {rest rest' : List Char} (letters : ∀ c ∈ name.toList, c.isAlpha = true)
    (letters' : ∀ c ∈ name'.toList, c.isAlpha = true)
    (same : name.toList ++ c :: rest = name'.toList ++ c :: rest') : name = name' ∧ rest = rest' := by
  have ends (rest : List Char) : EndsBefore Char.isAlpha (c :: rest) := .of_head ends rest
  obtain ⟨names, rests⟩ := (ends _).append_inj (ends _) letters letters' same
  exact ⟨String.toList_inj.mp names, (List.cons.inj rests).2⟩

theorem exists_record_eq (e : Expr) (following : List Char) :
    ∃ rest, e.record.toList ++ following = e.nodeName.toList ++ ' ' :: rest := by
  cases e <;> simp [record, recordText, nodeName]

theorem nodeName_of_record {a b : Expr} {following following' : List Char}
    (same : a.record.toList ++ following = b.record.toList ++ following') :
    a.nodeName = b.nodeName := by
  have letters (e : Expr) : ∀ c ∈ e.nodeName.toList, c.isAlpha = true := by
    cases e <;> simp [nodeName]
  obtain ⟨rest, named⟩ := exists_record_eq a following
  obtain ⟨rest', named'⟩ := exists_record_eq b following'
  exact (name_append_inj rfl (letters a) (letters b) (named ▸ named' ▸ same)).1

/-- A record ends with its own brace, whatever follows it. -/
theorem record_append_inj {a b : Expr} {following following' : List Char}
    (same : a.record.toList ++ following = b.record.toList ++ following') :
    a = b ∧ following = following' := by
  induction a generalizing b following following' with
  | literal value position =>
      cases b with
      | literal value' position' =>
          rw [toList_record_literal, toList_record_literal] at same
          have comma (following : List Char) (position : Nat) :
              EndsBefore isGlyph (positionField position following) := .of_head rfl _
          obtain ⟨texts, positions⟩ := (comma _ _).append_inj (comma _ _)
            (glyphs_text Layout.record value) (glyphs_text Layout.record value')
            (List.append_cancel_left same)
          obtain rfl := Layout.record.text_inj.mp (String.toList_inj.mp texts)
          obtain ⟨rfl, rests⟩ := positionField_inj positions
          exact ⟨rfl, rests⟩
      | _ => exact absurd (nodeName_of_record same) (by simp [nodeName])
  | unary operator operand position ih =>
      cases b with
      | unary operator' operand' position' =>
          rw [toList_record_unary, toList_record_unary] at same
          obtain ⟨names, operands⟩ := name_append_inj rfl operator.name_isAlpha
            operator'.name_isAlpha (List.append_cancel_left same)
          obtain rfl := UnaryOperator.name_inj names
          obtain ⟨rfl, positions⟩ := ih (List.append_cancel_left operands)
          obtain ⟨rfl, rests⟩ := positionField_inj positions
          exact ⟨rfl, rests⟩
      | _ => exact absurd (nodeName_of_record same) (by simp [nodeName])
  | binary operator left right position leftIH rightIH =>
      cases b with
      | binary operator' left' right' position' =>
          rw [toList_record_binary, toList_record_binary] at same
          obtain ⟨rfl, operators⟩ := leftIH (List.append_cancel_left same)
          obtain ⟨names, rights⟩ := name_append_inj rfl operator.name_isAlpha
            operator'.name_isAlpha (List.append_cancel_left operators)
          obtain rfl := BinaryOperator.name_inj names
          obtain ⟨rfl, positions⟩ := rightIH (List.append_cancel_left rights)
          obtain ⟨rfl, rests⟩ := positionField_inj positions
          exact ⟨rfl, rests⟩
      | _ => exact absurd (nodeName_of_record same) (by simp [nodeName])

/-- The record form of a tree is the record of it, and trees have the same record form if and only if
they are the same, with literals compared bit by bit and all NaNs alike. -/
theorem record_identifies (a b : Expr) :
    Form.record.write a = a.record ∧ (Form.record.write a = Form.record.write b ↔ a = b) := by
  refine ⟨write_eq_record a, fun same => ?_, congrArg _⟩
  rw [write_eq_record, write_eq_record] at same
  have texts := congrArg (·.toList ++ []) same
  exact (record_append_inj texts).1

end Expr

end Calculator
