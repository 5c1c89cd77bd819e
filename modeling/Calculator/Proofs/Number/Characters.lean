import Calculator.Proofs.Number.PlainText

/-!
# Characters of numbers

Few characters occur in the texts of numbers, in whichever layout. None of them separates or encloses
anything, so a text of a number ends where another character follows.
-/

set_option autoImplicit false

namespace Calculator.Layout

/-- Whether a character occurs in texts of numbers. -/
def isGlyph (c : Char) : Bool :=
  c.isDigit || ['+', '-', '.', 'N', 'a', 'e', 'f', 'i', 'n'].contains c

def Glyphs (text : List Char) : Prop :=
  ∀ c ∈ text, isGlyph c = true

instance (text : List Char) : Decidable (Glyphs text) :=
  List.decidableBAll (fun c : Char => isGlyph c = true) text

theorem Glyphs.append {text more : List Char} (glyphs : Glyphs text) (moreGlyphs : Glyphs more) :
    Glyphs (text ++ more) := by
  intro c member
  rcases List.mem_append.mp member with member | member
  · exact glyphs c member
  · exact moreGlyphs c member

theorem glyphs_of_digits {digits : List Char} (all : ∀ c ∈ digits, c.isDigit = true) :
    Glyphs digits := by
  intro c member
  simp [isGlyph, all c member]

theorem glyphs_positionalText (layout : Layout) (d : Decimal) :
    Glyphs (layout.positionalText d) := by
  by_cases integral : 0 ≤ d.exponent
  · have zeros : Glyphs (List.replicate d.exponent.toNat '0') :=
      glyphs_of_digits fun _ => isDigit_of_mem_zeros
    have tail : Glyphs (if layout.pointZero then ['.', '0'] else []) := by split_ifs <;> decide
    have text := ((glyphs_of_digits d.digits_isDigits.2).append zeros).append tail
    simpa only [positionalText, integral, if_true] using text
  · obtain ⟨whole, fraction, split, isWhole, isFraction, _⟩ :=
      Decimal.padded_split layout (Int.lt_of_not_ge integral)
    have point : Glyphs ['.'] := by decide
    have text := (glyphs_of_digits isWhole.2).append (point.append (glyphs_of_digits isFraction.2))
    exact split ▸ text

theorem glyphs_exponentText (layout : Layout) (exponent : Int) :
    Glyphs (layout.exponentText exponent) := by
  have digits := glyphs_of_digits (digits_toDigits exponent.natAbs).2
  have minus : Glyphs ['-'] := by decide
  have plus : Glyphs ['+'] := by decide
  unfold exponentText
  split_ifs
  · exact minus.append digits
  · exact plus.append digits
  · exact digits

theorem glyphs_scientificText (layout : Layout) (d : Decimal) :
    Glyphs (layout.scientificText d) := by
  have digits := glyphs_of_digits d.digits_isDigits.2
  have letter : Glyphs ['e'] := by decide
  have point : Glyphs ['.'] := by decide
  have fraction : Glyphs (if (d.digits.drop 1).isEmpty then [] else '.' :: d.digits.drop 1) := by
    split_ifs
    · exact nofun
    · exact point.append fun c member => digits c (List.mem_of_mem_drop member)
  have first : Glyphs (d.digits.take 1) := fun c member => digits c (List.mem_of_mem_take member)
  exact (first.append fraction).append (letter.append (glyphs_exponentText layout _))

theorem glyphs_text (layout : Layout) (v : Float) : Glyphs (layout.text v).toList := by
  have sign : Glyphs (if isNegative v then "-" else "").toList := by split_ifs <;> decide
  have infinity : Glyphs "inf".toList := by decide
  have decimal (d : Decimal) : Glyphs (layout.decimalText d) := by
    unfold decimalText
    split_ifs
    · exact glyphs_positionalText layout d
    · exact glyphs_scientificText layout d
  by_cases nan : v.isNaN = true
  · have text : layout.text v = "NaN" := if_pos nan
    rw [text]
    decide
  · by_cases infinite : v.isInf = true
    · simpa only [text, nan, infinite, if_true, Bool.false_eq_true, if_false, String.toList_append]
        using sign.append infinity
    · simpa only [text, nan, infinite, Bool.false_eq_true, if_false, String.toList_append,
        String.toList_ofList] using sign.append (decimal _)

end Calculator.Layout
