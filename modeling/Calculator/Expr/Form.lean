import Calculator.Expr.Basic
import Calculator.Layout

/-!
# Written forms of trees

A form says how one node is written, as pieces of text around its operands. Writing a tree replaces
pending trees by their pieces from left to right, so that depth costs no call stack. The
`parenthesized` form encloses every operation in parentheses and is itself an expression; the
`record` form spells out every field.
-/

set_option autoImplicit false

namespace Calculator

namespace Expr

inductive Piece where
  /-- Text as it is. -/
  | text (text : String)
  /-- A tree still to be written. -/
  | tree (e : Expr)

/-- The work that pending pieces make: one for a text, and four for every node of a tree, which has
at most three texts around its operands. -/
def Piece.work : List Piece → Nat
  | [] => 0
  | .text _ :: rest => work rest + 1
  | .tree e :: rest => 4 * e.size + work rest

theorem Piece.work_append (first second : List Piece) :
    work (first ++ second) = work first + work second := by
  induction first with
  | nil => simp [work]
  | cons piece rest ih =>
      cases piece <;> simp only [List.cons_append, work, ih] <;> omega

/-- A way to write trees, as the pieces of each node. The pieces make less work than the node, so
that only smaller trees are left to write. -/
structure Form where
  pieces : Expr → List Piece
  work_pieces_lt : ∀ e, Piece.work (pieces e) < 4 * e.size

namespace Form

/-- The pending pieces written after `written`. -/
def writeAll (form : Form) : List Piece → String → String
  | [], written => written
  | .text text :: rest, written => form.writeAll rest (written ++ text)
  | .tree e :: rest, written => form.writeAll (form.pieces e ++ rest) written
termination_by pending => Piece.work pending
decreasing_by
  · simp only [Piece.work]
    omega
  · rw [Piece.work_append]
    exact Nat.add_lt_add_right (form.work_pieces_lt e) _

def write (form : Form) (e : Expr) : String :=
  form.writeAll [.tree e] ""

/-- Operations in parentheses, with spaces around infix operators and none after prefix ones. -/
def parenthesized : Form where
  pieces
    | .literal value _ => [.text (Layout.plain.text value)]
    | .unary operator operand _ =>
        [.text ("(" ++ String.singleton operator.symbol), .tree operand, .text ")"]
    | .binary operator left right _ =>
        [.text "(", .tree left, .text (" " ++ String.singleton operator.symbol ++ " "),
          .tree right, .text ")"]
  work_pieces_lt e := by
    cases e <;> simp only [Piece.work, size] <;> omega

/-- Every field of every node under its name. -/
def record : Form where
  pieces
    | .literal value position =>
        [.text ("Literal \x7b value: " ++ Layout.record.text value ++ ", position: " ++
          position.repr ++ " \x7d")]
    | .unary operator operand position =>
        [.text ("UnaryOp \x7b op: " ++ operator.name ++ ", operand: "), .tree operand,
          .text (", position: " ++ position.repr ++ " \x7d")]
    | .binary operator left right position =>
        [.text "BinaryOp \x7b left: ", .tree left,
          .text (", op: " ++ operator.name ++ ", right: "), .tree right,
          .text (", position: " ++ position.repr ++ " \x7d")]
  work_pieces_lt e := by
    cases e <;> simp only [Piece.work, size] <;> omega

end Form

end Expr

end Calculator
