import Calculator.CommandLine.Run
import Calculator.Proofs.Engine.Position
import Calculator.Proofs.Number.Sign

/-!
# Printed results

The plain text of a finite double is an expression, a numeral after a minus sign if the sign bit is
set, and its value is this double bit by bit. The texts of other doubles are no expressions.
-/

set_option autoImplicit false

namespace Calculator

open Grammar Scanning

theorem evaluate_of_covers {source : String} {lexemes : List Lexeme} {e : Expr} {depth : Nat}
    (covers : Covers 0 source.toList lexemes []) (derives : Derives .sum lexemes e depth)
    (shallow : depth ≤ 512) : evaluate source = e.eval := by
  have partition := covers.partition nofun
  rw [List.append_nil] at partition
  simp only [evaluate, parse_of_derives partition derives shallow]

section Finite

variable {v : Float} (finite : v.isFinite = true)

include finite

theorem evaluate_text_of_positive (clear : isNegative v = false) :
    evaluate (Layout.plain.text v) = .ok v := by
  have munches : Munches (Layout.plain.text v).toList (.number v) [] :=
    Layout.munches_plain_text finite clear nofun
  have derives : Derives .sum [⟨.number v, 0⟩] (.literal v 0) 0 := Derives.number.of_factor .sum
  rw [evaluate_of_covers (munches.covers 0) derives (by decide), Expr.eval_eq_value]
  rfl

theorem toList_text_of_negative (negative : isNegative v = true) :
    (Layout.plain.text v).toList =
      ['-'] ++ Layout.plain.positionalText ((Magnitude.ofFloat v).shortest Layout.plain.tie) := by
  rw [Layout.toList_text finite Layout.plain, negative]
  rfl

theorem evaluate_text_of_negative (negative : isNegative v = true) :
    evaluate (Layout.plain.text v) = .ok v := by
  let unsigned := (Magnitude.ofFloat v).toFloat
  let digits := Layout.plain.positionalText ((Magnitude.ofFloat v).shortest Layout.plain.tie)
  have munches : Munches digits (.number unsigned) [] := by
    have read : Munches digits (.number _) [] := Layout.munches_positionalText _ nofun
    rwa [Magnitude.nearest_shortest] at read
  have covers : Covers 0 (Layout.plain.text v).toList [⟨.minus, 0⟩, ⟨.number unsigned, 1⟩] [] := by
    rw [toList_text_of_negative finite negative]
    exact (Munches.minus.covers 0).append (munches.covers 1)
  have derives : Derives .factor [⟨.minus, 0⟩, ⟨.number unsigned, 1⟩]
      (.unary .neg (.literal unsigned 1) 0) 1 := .signed .minus .number
  rw [evaluate_of_covers covers (derives.of_factor .sum) (by decide), Expr.eval_eq_value]
  change Except.ok (-unsigned) = .ok v
  rw [neg_toFloat_ofFloat finite negative]

end Finite

theorem evaluate_text_of_not_finite {v : Float} (infinite : v.isInf = true ∨ v.isNaN = true) :
    ∃ position c, evaluate (Layout.plain.text v) = .error (.unexpectedChar position c) := by
  by_cases nan : v.isNaN = true
  · have text : Layout.plain.text v = "NaN" := by rw [Layout.text, if_pos nan]
    rw [text]
    exact ⟨0, 'N', by decide +kernel⟩
  · have text : Layout.plain.text v = (if isNegative v then "-" else "") ++ "inf" := by
      simp only [Layout.text, nan, infinite.resolve_right nan, if_true, Bool.false_eq_true, if_false]
    rw [text]
    cases isNegative v with
    | false => exact ⟨0, 'i', by decide +kernel⟩
    | true => exact ⟨1, 'i', by decide +kernel⟩

/-- What is printed for a finite double is an expression whose value is this double. What is printed for
an infinity or a NaN is refused at a character that starts no token. -/
theorem evaluate_printed_result (v : Float) :
    ∃ text, (Report.ofEnvelope false (Envelope.ok v none)).output = [text] ∧
      (v.isFinite = true → evaluate text = .ok v) ∧
      (v.isInf = true ∨ v.isNaN = true →
        ∃ position c, evaluate text = .error (.unexpectedChar position c)) := by
  refine ⟨Layout.plain.text v, rfl, ?_, evaluate_text_of_not_finite⟩
  intro finite
  cases sign : isNegative v with
  | false => exact evaluate_text_of_positive finite sign
  | true => exact evaluate_text_of_negative finite sign

/-- Negative zero and the negative double nearest to it keep their signs. -/
theorem evaluate_printed_result_signed :
    (∃ text, (Report.ofEnvelope false (Envelope.ok (-0.0) none)).output = [text] ∧
      evaluate text = .ok (-0.0)) ∧
    ∃ text, (Report.ofEnvelope false (Envelope.ok (Float.ofBits 0x8000000000000001) none)).output =
      [text] ∧ evaluate text = .ok (Float.ofBits 0x8000000000000001) := by
  obtain ⟨zeroText, zeroPrinted, zero, _⟩ := evaluate_printed_result (-0.0)
  obtain ⟨text, printed, least, _⟩ := evaluate_printed_result (Float.ofBits 0x8000000000000001)
  exact ⟨⟨zeroText, zeroPrinted, zero (by decide +kernel)⟩, text, printed, least (by decide +kernel)⟩

end Calculator
