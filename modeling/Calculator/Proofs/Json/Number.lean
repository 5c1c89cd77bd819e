import Mathlib
import Calculator.Proofs.Json.Text
import Calculator.Proofs.Number.Characters
import Calculator.Proofs.Number.Sign

/-!
# Numbers in JSON

Every finite double is written as a number of JSON that is read back as the same double, be it with a
point or with an exponent.
-/

set_option autoImplicit false

namespace Calculator.Json

open Scanning Layout

/-! ## Parts of numbers -/

variable {following : List Char}

theorem readDigits_append {digits : List Char} (isDigits : Digits digits)
    (ends : EndsBefore Char.isDigit following) :
    readDigits (digits ++ following) = some (digits, following) := by
  obtain ⟨filled, all⟩ := isDigits
  rw [readDigits, ends.takeWhile_append all, ends.dropWhile_append all]
  cases digits with
  | nil => exact absurd rfl filled
  | cons => rfl

theorem readWhole_append {digits : List Char} (isDigits : Digits digits)
    (concise : digits.head? = some '0' → digits.length = 1)
    (ends : EndsBefore Char.isDigit following) :
    readWhole (digits ++ following) = some (digits, following) := by
  rw [readWhole, readDigits_append isDigits ends]
  simp only [Option.bind_eq_bind, Option.bind_some, guard, if_pos concise]
  rfl

theorem readSigned_exponentText (layout : Layout) (exponent : Int)
    (ends : EndsBefore Char.isDigit following) :
    readSigned (layout.exponentText exponent ++ following) = some (exponent, following) := by
  have isDigits := digits_toDigits exponent.natAbs
  have digits := readDigits_append isDigits ends
  unfold exponentText
  split_ifs with negative plus
  · have value : -(exponent.natAbs : Int) = exponent := by omega
    rw [List.cons_append, readSigned, digits, ← value]
    simp
  · have value : (exponent.natAbs : Int) = exponent := by omega
    rw [List.cons_append, readSigned, digits, ← value]
    simp
  · have value : (exponent.natAbs : Int) = exponent := by omega
    rw [readSigned, digits, ← value]
    · simp
    · intro tail split
      cases isDigits.isDigit_head split
    · intro tail split
      cases isDigits.isDigit_head split

/-- Whether a number with a point and without an exponent ends before `following`. -/
def EndsDecimal (following : List Char) : Prop :=
  EndsBefore (fun c => c.isDigit || c == 'e' || c == 'E') following

theorem EndsDecimal.isDigit (ends : EndsDecimal following) : EndsBefore Char.isDigit following :=
  ends.mono fun c digit => by simp [digit]

theorem EndsDecimal.readExponent (ends : EndsDecimal following) :
    readExponent following = some (0, following) := by
  rw [Json.readExponent]
  · exact ends.ne_cons rfl
  · exact ends.ne_cons rfl

theorem readFraction_append {fraction : List Char} (isFraction : ∀ c ∈ fraction, c.isDigit = true)
    (ends : EndsBefore Char.isDigit following)
    (point : fraction = [] → ∀ tail, following ≠ '.' :: tail) :
    readFraction ((if fraction.isEmpty then [] else '.' :: fraction) ++ following) =
      some (fraction, following) := by
  cases fraction with
  | nil =>
      rw [List.isEmpty_nil, if_pos rfl, List.nil_append, readFraction]
      exact point rfl
  | cons c fraction =>
      exact readDigits_append ⟨List.cons_ne_nil c fraction, isFraction⟩ ends

theorem endsBefore_fraction (fraction : List Char) (ends : EndsBefore Char.isDigit following) :
    EndsBefore Char.isDigit ((if fraction.isEmpty then [] else '.' :: fraction) ++ following) := by
  cases fraction with
  | nil => exact ends
  | cons => exact .of_head rfl _

theorem readDecimal_eq {text whole fraction rest afterWhole afterFraction : List Char} {exponent : Int}
    (wholeRead : readWhole text = some (whole, afterWhole))
    (fractionRead : readFraction afterWhole = some (fraction, afterFraction))
    (exponentRead : readExponent afterFraction = some (exponent, rest)) :
    readDecimal text =
      some (⟨Nat.ofDigitChars 10 (whole ++ fraction) 0, exponent - fraction.length⟩, rest) := by
  simp only [readDecimal, wholeRead, fractionRead, exponentRead, Option.bind_eq_bind,
    Option.bind_some]
  rfl

/-! ## Decimals -/

theorem readDecimal_positional {whole fraction : List Char} (isWhole : Digits whole)
    (concise : whole.head? = some '0' → whole.length = 1)
    (isFraction : ∀ c ∈ fraction, c.isDigit = true) (ends : EndsDecimal following)
    (point : fraction = [] → ∀ tail, following ≠ '.' :: tail) :
    readDecimal (whole ++ (if fraction.isEmpty then [] else '.' :: fraction) ++ following) =
      some (Decimal.ofDigits whole fraction, following) := by
  have wholeRead := readWhole_append isWhole concise (endsBefore_fraction fraction ends.isDigit)
  have fractionRead := readFraction_append isFraction ends.isDigit point
  rw [List.append_assoc, readDecimal_eq wholeRead fractionRead ends.readExponent, Decimal.ofDigits,
    zero_sub]

theorem readDecimal_scientific (layout : Layout) {first : Char} {fraction : List Char}
    (isFirst : first.isDigit = true) (isFraction : ∀ c ∈ fraction, c.isDigit = true) (exponent : Int)
    (ends : EndsBefore Char.isDigit following) :
    readDecimal ([first] ++ (if fraction.isEmpty then [] else '.' :: fraction) ++
        'e' :: layout.exponentText exponent ++ following) =
      some (⟨Nat.ofDigitChars 10 (first :: fraction) 0, exponent - fraction.length⟩, following) := by
  have letter : EndsBefore Char.isDigit ('e' :: (layout.exponentText exponent ++ following)) :=
    .of_head rfl _
  have isWhole : Digits [first] := ⟨List.cons_ne_nil _ _, by simpa⟩
  have wholeRead := readWhole_append isWhole (fun _ => rfl) (endsBefore_fraction fraction letter)
  have fractionRead := readFraction_append isFraction letter nofun
  have exponentRead : readExponent ('e' :: (layout.exponentText exponent ++ following)) =
      some (exponent, following) := by
    rw [readExponent]
    exact readSigned_exponentText layout exponent ends
  rw [List.append_assoc, List.append_assoc]
  exact readDecimal_eq wholeRead fractionRead exponentRead

/-- The parts of a positional text, whose point may be missing. Zero has no superfluous zeros, for it is
written without more of them. -/
theorem positionalText_eq (layout : Layout) {d : Decimal}
    (reduced : d.coefficient = 0 → d.exponent = 0) :
    ∃ whole fraction,
      layout.positionalText d = whole ++ (if fraction.isEmpty then [] else '.' :: fraction) ∧
      Digits whole ∧ (whole.head? = some '0' → whole.length = 1) ∧
      (∀ c ∈ fraction, c.isDigit = true) ∧ (fraction = [] → layout.pointZero = false) ∧
      (Decimal.ofDigits whole fraction).nearest = d.nearest := by
  by_cases integral : 0 ≤ d.exponent
  · let whole := d.digits ++ List.replicate d.exponent.toNat '0'
    have isWhole : Digits whole := d.digits_isDigits.append fun _ => isDigit_of_mem_zeros
    have concise : whole.head? = some '0' → whole.length = 1 := by
      -- Only the digits of zero begin with a zero, and then no more zeros follow.
      intro zero
      rw [List.head?_append_of_ne_nil _ d.digits_isDigits.1] at zero
      have empty := Decimal.eq_zero_of_head?_digits zero
      simp [whole, reduced empty, Decimal.digits, empty]
    cases pointZero : layout.pointZero with
    | false =>
        refine ⟨whole, [], ?_, isWhole, concise, by simp, fun _ => rfl, ?_⟩
        · simp [positionalText, integral, pointZero, whole]
        · rw [Decimal.ofDigits_append_zeros, Decimal.nearest_shift, Int.zero_add,
            Int.toNat_of_nonneg integral]
    | true =>
        refine ⟨whole, ['0'], ?_, isWhole, concise, by simp, by simp, ?_⟩
        · simp [positionalText, integral, pointZero, whole]
        · have value : Decimal.ofDigits whole ['0'] =
              ⟨d.coefficient * 10 ^ (d.exponent.toNat + 1), -1⟩ := by
            simp [whole, Decimal.ofDigits, Decimal.digits, Nat.ofDigitChars_append,
              Nat.ofDigitChars_replicate_zero, Nat.ofDigitChars_cons]
            ring
          have exponent : (-1 : Int) + (d.exponent.toNat + 1 : Nat) = d.exponent := by omega
          rw [value, Decimal.nearest_shift, exponent]
  · obtain ⟨whole, fraction, split, isWhole, ⟨filled, isFraction⟩, value, concise⟩ :=
      Decimal.padded_split layout (Int.lt_of_not_ge integral)
    have pointed : (if fraction.isEmpty then [] else '.' :: fraction) = '.' :: fraction := by
      simp [filled]
    exact ⟨whole, fraction, by rw [split, pointed], isWhole, concise, isFraction,
      fun empty => absurd empty filled, by rw [value]⟩

theorem scientificText_eq (layout : Layout) (d : Decimal) :
    ∃ first fraction, d.digits = first :: fraction ∧
      layout.scientificText d = [first] ++ (if fraction.isEmpty then [] else '.' :: fraction) ++
        'e' :: layout.exponentText d.leadingExponent := by
  cases digits : d.digits with
  | nil => exact absurd digits d.digits_isDigits.1
  | cons first fraction => exact ⟨first, fraction, rfl, by rw [scientificText, digits]; rfl⟩

/-- What is written of a decimal is read as its value, in every layout. Where the layout writes no point,
none may follow. -/
theorem readDecimal_decimalText (layout : Layout) {d : Decimal}
    (reduced : d.coefficient = 0 → d.exponent = 0) (ends : EndsDecimal following)
    (point : layout.pointZero = false → ∀ tail, following ≠ '.' :: tail) :
    ∃ read, readDecimal (layout.decimalText d ++ following) = some (read, following) ∧
      read.nearest = d.nearest := by
  unfold decimalText
  split_ifs
  · obtain ⟨whole, fraction, split, isWhole, concise, isFraction, pointless, value⟩ :=
      positionalText_eq layout reduced
    rw [split]
    exact ⟨_, readDecimal_positional isWhole concise isFraction ends
      fun empty => point (pointless empty), value⟩
  · obtain ⟨first, fraction, digits, split⟩ := scientificText_eq layout d
    have isDigits := d.digits_isDigits.2
    rw [digits] at isDigits
    rw [split]
    refine ⟨_, readDecimal_scientific layout (isDigits first List.mem_cons_self)
      (fun c member => isDigits c (List.mem_cons_of_mem _ member)) _ ends.isDigit, ?_⟩
    have coefficient : Nat.ofDigitChars 10 (first :: fraction) 0 = d.coefficient := by
      rw [← digits, Decimal.digits]
      exact Nat.ofDigitChars_ten_toDigits
    have exponent : d.leadingExponent - fraction.length = d.exponent := by
      rw [Decimal.leadingExponent, digits, List.length_cons]
      omega
    rw [coefficient, exponent]

/-! ## Finite doubles -/

theorem reduced_trim (d : Decimal) : d.trim.coefficient = 0 → d.trim.exponent = 0 := by
  fun_induction Decimal.trim d with
  | case1 => exact fun _ => rfl
  | case2 _ _ _ ih => exact ih
  | case3 d filled => exact fun empty => absurd empty filled

theorem readDecimal_of_not_isDigit {c : Char} (other : c.isDigit = false) (rest : List Char) :
    readDecimal (c :: rest) = none := by
  simp [readDecimal, readWhole, readDigits, other]

theorem readNumber_of_readDecimal {text rest : List Char} {d : Decimal}
    (read : readDecimal text = some (d, rest)) :
    readNumber text = some (d.nearest.toFloat, rest) := by
  rw [readNumber, read]
  · rfl
  · rintro tail rfl
    cases (readDecimal_of_not_isDigit rfl tail).symm.trans read

theorem readScalar_of_readNumber {text rest : List Char} {v : Float}
    (read : readNumber text = some (v, rest)) : readScalar text = some (.number v, rest) := by
  have neither (c : Char) (other : c.isDigit = false) (sign : c ≠ '-') (tail : List Char) :
      text ≠ c :: tail := by
    rintro rfl
    rw [readNumber, readDecimal_of_not_isDigit other] at read
    · cases read
    · exact fun _ same => sign (List.cons.inj same).1
  rw [readScalar, read]
  · rfl
  · exact fun tail => neither 'n' rfl (by decide) _
  · exact fun tail => neither 't' rfl (by decide) _
  · exact fun tail => neither 'f' rfl (by decide) _
  · exact fun tail => neither '"' rfl (by decide) _

/-- The text of a finite double is read as this double, whatever its layout. -/
theorem readNumber_text (layout : Layout) {v : Float} (finite : v.isFinite = true)
    (ends : EndsDecimal following)
    (point : layout.pointZero = false → ∀ tail, following ≠ '.' :: tail) :
    readNumber ((layout.text v).toList ++ following) = some (v, following) := by
  obtain ⟨read, decimalRead, same⟩ := readDecimal_decimalText layout
    (d := (Magnitude.ofFloat v).shortest layout.tie) (reduced_trim _) ends point
  rw [Magnitude.nearest_shortest] at same
  rw [toList_text finite layout]
  cases sign : isNegative v with
  | false => rw [if_neg Bool.false_ne_true, List.nil_append, readNumber_of_readDecimal decimalRead, same,
      toFloat_ofFloat finite sign]
  | true =>
      rw [if_pos rfl, List.append_assoc, List.singleton_append, readNumber, decimalRead]
      simp only [Option.bind_eq_bind, Option.bind_some, same]
      rw [neg_toFloat_ofFloat finite sign]
      rfl

theorem readNumber_number {v : Float} (finite : v.isFinite = true) (ends : EndsDecimal following) :
    readNumber ((number v).toList ++ following) = some (v, following) := by
  rw [number, if_pos finite]
  exact readNumber_text json finite ends nofun

/-! ## Control characters -/

theorem graphic_of_glyphs {text : List Char} (glyphs : Glyphs text) : Graphic text := by
  intro c member
  have occurs := glyphs c member
  simp only [isGlyph, Char.isDigit, Bool.or_eq_true, Bool.and_eq_true, decide_eq_true_eq,
    List.contains_iff_mem] at occurs
  rcases occurs with ⟨least, _⟩ | listed
  · exact Nat.le_trans (by decide) (UInt32.le_iff_toNat_le.mp least)
  · have graphic : Graphic ['+', '-', '.', 'N', 'a', 'e', 'f', 'i', 'n'] := by decide
    exact graphic c listed

theorem graphic_number (v : Float) : Graphic (number v).toList := by
  unfold number
  split_ifs
  · exact graphic_of_glyphs (glyphs_text json v)
  · decide

end Calculator.Json
