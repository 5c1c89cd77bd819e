import Calculator.Proofs.Engine.SourceOrder
import Calculator.Proofs.Number.Value
import Calculator.Proofs.Printing.RoundTrip

/-!
# Equality of trees

Comparing pending pairs decides whether two trees agree node by node. This relation is symmetric and
transitive. A tree agrees with itself unless it holds a NaN, and no tree that is parsed holds one.
-/

set_option autoImplicit false

namespace Calculator

namespace Expr

/-- Whether two trees agree in shape, operators and positions, with literals that are equal as
numbers. -/
inductive Agree : Expr → Expr → Prop where
  | literal {value value' position} :
      (value == value') = true → Agree (.literal value position) (.literal value' position)
  | unary {operator operand operand' position} :
      Agree operand operand' →
      Agree (.unary operator operand position) (.unary operator operand' position)
  | binary {operator left left' right right' position} :
      Agree left left' → Agree right right' →
      Agree (.binary operator left right position) (.binary operator left' right' position)

namespace Agree

variable {value value' : Float} {o o' : UnaryOperator} {operator operator' : BinaryOperator}
  {x x' y y' : Expr} {p q : Nat}

theorem literal_iff :
    Agree (.literal value p) (.literal value' q) ↔ (value == value') = true ∧ p = q := by
  constructor
  · intro agree
    cases agree with
    | literal same => exact ⟨same, rfl⟩
  · rintro ⟨same, rfl⟩
    exact .literal same

theorem unary_iff : Agree (.unary o x p) (.unary o' y q) ↔ (o = o' ∧ p = q) ∧ Agree x y := by
  constructor
  · intro agree
    cases agree with
    | unary operands => exact ⟨⟨rfl, rfl⟩, operands⟩
  · rintro ⟨⟨rfl, rfl⟩, operands⟩
    exact .unary operands

theorem binary_iff :
    Agree (.binary operator x x' p) (.binary operator' y y' q) ↔
      (operator = operator' ∧ p = q) ∧ Agree x y ∧ Agree x' y' := by
  constructor
  · intro agree
    cases agree with
    | binary left right => exact ⟨⟨rfl, rfl⟩, left, right⟩
  · rintro ⟨⟨rfl, rfl⟩, left, right⟩
    exact .binary left right

theorem symm {a b : Expr} (agree : Agree a b) : Agree b a := by
  induction agree with
  | literal same => exact .literal (BEq.symm same)
  | unary _ ih => exact .unary ih
  | binary _ _ leftIH rightIH => exact .binary leftIH rightIH

theorem trans {a b c : Expr} (first : Agree a b) (second : Agree b c) : Agree a c := by
  induction first generalizing c with
  | literal same =>
      cases second with
      | literal same' => exact .literal (BEq.trans same same')
  | unary _ ih =>
      cases second with
      | unary operands => exact .unary (ih operands)
  | binary _ _ leftIH rightIH =>
      cases second with
      | binary left right => exact .binary (leftIH left) (rightIH right)

/-- Only a NaN keeps a tree from agreeing with itself. -/
theorem self_iff (e : Expr) : Agree e e ↔ e.EachLiteral fun value => value.isNaN = false := by
  induction e with
  | literal value position => simp [literal_iff, EachLiteral]
  | unary operator operand position ih => simp [unary_iff, EachLiteral, ih]
  | binary operator left right position leftIH rightIH =>
      simp [binary_iff, EachLiteral, leftIH, rightIH]

end Agree

/-- The invariant of the comparison: it succeeds if and only if all pending pairs agree. -/
theorem equalPairs_iff (pairs : List (Expr × Expr)) :
    equalPairs pairs = true ↔ ∀ pair ∈ pairs, Agree pair.1 pair.2 := by
  fun_induction equalPairs pairs with
  | case1 => simp
  | case2 a p b q rest same ih =>
      simp only [Bool.and_eq_true, beq_iff_eq] at same
      simp [ih, Agree.literal_iff, same]
  | case3 a p b q rest differ =>
      simp only [Bool.and_eq_true, beq_iff_eq] at differ
      simp [Agree.literal_iff, differ]
  | case4 o x p o' y q rest same ih => simp [ih, Agree.unary_iff, same]
  | case5 o x p o' y q rest differ => simp [Agree.unary_iff, differ]
  | case6 o x x' p o' y y' q rest same ih => simp [ih, Agree.binary_iff, same, and_assoc]
  | case7 o x x' p o' y y' q rest differ => simp [Agree.binary_iff, differ]
  | case8 pair rest literals unaries binaries =>
      -- The roots are nodes of different kinds.
      have disagree : ¬ Agree pair.1 pair.2 := by
        obtain ⟨a, b⟩ := pair
        intro agree
        cases agree with
        | literal => exact literals _ _ _ _ rfl
        | unary => exact unaries _ _ _ _ _ _ rfl
        | binary => exact binaries _ _ _ _ _ _ _ _ rfl
      simp [disagree]

theorem equal_iff {a b : Expr} : a.equal b = true ↔ Agree a b := by
  simp [equal, equalPairs_iff]

theorem eachLiteral_of_inorder {p : Float → Prop} {e : Expr}
    (all : ∀ value position, ⟨.number value, position⟩ ∈ e.inorder → p value) : e.EachLiteral p := by
  induction e with
  | literal value position => exact all value position List.mem_cons_self
  | unary operator operand position ih =>
      exact ih fun value position member => all value position (List.mem_cons_of_mem _ member)
  | binary operator left right position leftIH rightIH =>
      constructor
      · exact leftIH fun value position member => all value position (List.mem_append_left _ member)
      · exact rightIH fun value position member =>
          all value position (List.mem_append_right _ (List.mem_cons_of_mem _ member))

end Expr

/-! ## Parsed trees -/

theorem Scanning.Munches.isNaN {word following : List Char} {value : Float}
    (munches : Munches word (.number value) following) : value.isNaN = false := by
  cases munches <;> exact Magnitude.isNaN_toFloat _

namespace Expr

theorem isNaN_of_parse {source : String} {e : Expr} (parsed : parse source = .ok e) :
    e.EachLiteral fun value => value.isNaN = false := by
  obtain ⟨lexemes, partition, inorder, _⟩ := exists_partition_of_parse parsed
  apply eachLiteral_of_inorder
  intro value position member
  have listed : ⟨.number value, position⟩ ∈ lexemes :=
    List.mem_of_mem_filter (inorder ▸ member)
  obtain ⟨_, _, _, _, munches, _⟩ := partition.located listed
  exact munches.isNaN

/-- Two trees are equal if and only if they agree node by node. So equality is symmetric and transitive,
and reflexive for trees without a NaN, as are all parsed ones. -/
theorem equal_decides_agreement :
    (∀ a b : Expr, a.equal b = true ↔ Agree a b) ∧
    (∀ a b : Expr, a.equal b = b.equal a) ∧
    (∀ a b c : Expr, a.equal b = true → b.equal c = true → a.equal c = true) ∧
    (∀ e : Expr, e.equal e = true ↔ e.EachLiteral fun value => value.isNaN = false) ∧
    ∀ source e, parse source = .ok e → e.equal e = true := by
  refine ⟨fun _ _ => equal_iff, ?_, ?_, ?_, ?_⟩
  · intro a b
    rw [Bool.eq_iff_iff, equal_iff, equal_iff]
    exact ⟨Agree.symm, Agree.symm⟩
  · intro a b c first second
    exact equal_iff.mpr ((equal_iff.mp first).trans (equal_iff.mp second))
  · exact fun e => equal_iff.trans (Agree.self_iff e)
  · exact fun source e parsed => equal_iff.mpr ((Agree.self_iff e).mpr (isNaN_of_parse parsed))

/-- Zeros of either sign are equal, in a chain of three trees and in the tree of `0 / 0`, which is equal
to itself though it has no value. -/
theorem equal_decides_agreement_zeros :
    (Expr.literal 0 7).equal (.literal (-0.0) 7) = true ∧
    (Expr.literal (-0.0) 7).equal (.literal 0 7) = true ∧
    (Expr.literal 0 7).equal (.literal 0 7) = true ∧
    ∃ e, parse "0 / 0" = .ok e ∧ e.equal e = true := by
  obtain ⟨_, symmetric, transitive, _, parsedEqual⟩ := equal_decides_agreement
  have first : (Expr.literal 0 7).equal (.literal (-0.0) 7) = true := by decide +kernel
  have second : (Expr.literal (-0.0) 7).equal (.literal 0 7) = true := (symmetric _ _).trans first
  have parsed : parse "0 / 0" = .ok (.binary .div (.literal 0 0) (.literal 0 4) 2) := by decide +kernel
  exact ⟨first, second, transitive _ _ _ first second, _, parsed, parsedEqual _ _ parsed⟩

end Expr

end Calculator
