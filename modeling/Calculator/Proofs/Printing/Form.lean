import Calculator.Expr.Form

/-!
# Writing of trees

Pending pieces are written one after another, whatever has been written before, so the text of a tree
is composed of the texts of its operands.
-/

set_option autoImplicit false

namespace Calculator.Expr.Form

variable (form : Form)

theorem writeAll_append_written (before : String) (pending : List Piece) (written : String) :
    form.writeAll pending (before ++ written) = before ++ form.writeAll pending written := by
  fun_induction writeAll form pending written with
  | case1 => rw [writeAll]
  | case2 written text rest ih => rw [writeAll, String.append_assoc, ih]
  | case3 written e rest ih => rw [writeAll, ih]

theorem writeAll_append (first second : List Piece) (written : String) :
    form.writeAll (first ++ second) written = form.writeAll second (form.writeAll first written) := by
  fun_induction writeAll form first written with
  | case1 => rfl
  | case2 written text rest ih => rw [List.cons_append, writeAll, ih]
  | case3 written e rest ih => rw [List.cons_append, writeAll, ← List.append_assoc, ih]

theorem writeAll_text (text : String) (rest : List Piece) (written : String) :
    form.writeAll (.text text :: rest) written = form.writeAll rest (written ++ text) := by
  rw [writeAll]

theorem writeAll_tree (e : Expr) (rest : List Piece) (written : String) :
    form.writeAll (.tree e :: rest) written = form.writeAll rest (written ++ form.write e) := by
  have split := form.writeAll_append [.tree e] rest written
  have alone := form.writeAll_append_written written [.tree e] ""
  rw [String.append_empty] at alone
  rw [← List.singleton_append, split, alone, write]

theorem write_eq (e : Expr) : form.write e = form.writeAll (form.pieces e) "" := by
  rw [write, writeAll, List.append_nil]

/-! ## The parenthesized form -/

theorem write_literal (value : Float) (position : Nat) :
    parenthesized.write (.literal value position) = Layout.plain.text value := by
  simp [write_eq, parenthesized, writeAll]

theorem write_unary (operator : UnaryOperator) (operand : Expr) (position : Nat) :
    parenthesized.write (.unary operator operand position) =
      "(" ++ String.singleton operator.symbol ++ parenthesized.write operand ++ ")" := by
  rw [write_eq]
  simp only [parenthesized, writeAll_text, writeAll_tree, writeAll, String.empty_append]

theorem write_binary (operator : BinaryOperator) (left right : Expr) (position : Nat) :
    parenthesized.write (.binary operator left right position) =
      "(" ++ parenthesized.write left ++ (" " ++ String.singleton operator.symbol ++ " ") ++
        parenthesized.write right ++ ")" := by
  rw [write_eq]
  simp only [parenthesized, writeAll_text, writeAll_tree, writeAll, String.empty_append]

/-! ## The record form -/

theorem record_write_literal (value : Float) (position : Nat) :
    record.write (.literal value position) =
      "Literal \x7b value: " ++ Layout.record.text value ++ ", position: " ++ position.repr ++
        " \x7d" := by
  simp only [write_eq, record, writeAll, String.empty_append]

theorem record_write_unary (operator : UnaryOperator) (operand : Expr) (position : Nat) :
    record.write (.unary operator operand position) =
      "UnaryOp \x7b op: " ++ operator.name ++ ", operand: " ++ record.write operand ++
        (", position: " ++ position.repr ++ " \x7d") := by
  rw [write_eq]
  simp only [record, writeAll_text, writeAll_tree, writeAll, String.empty_append]

theorem record_write_binary (operator : BinaryOperator) (left right : Expr) (position : Nat) :
    record.write (.binary operator left right position) =
      "BinaryOp \x7b left: " ++ record.write left ++ (", op: " ++ operator.name ++ ", right: ") ++
        record.write right ++ (", position: " ++ position.repr ++ " \x7d") := by
  rw [write_eq]
  simp only [record, writeAll_text, writeAll_tree, writeAll, String.empty_append]

end Calculator.Expr.Form
