import Mathlib
import Calculator.Proofs.Json.Reader

/-!
# Texts in JSON

A quoted text is read back as it was, whatever its characters are, and holds no control character.
-/

set_option autoImplicit false

namespace Calculator.Json

/-! ## Reading back -/

theorem hexValue?_digitChar : ∀ digit < 16, hexValue? (Nat.digitChar digit) = some digit := by
  decide

theorem codeUnit?_control {code : Nat} (control : code < 0x20) :
    codeUnit? '0' '0' (Nat.digitChar (code / 16)) (Nat.digitChar (code % 16)) = some code := by
  have upper := hexValue?_digitChar (code / 16) (by omega)
  have lower := hexValue?_digitChar (code % 16) (by omega)
  have zero : hexValue? '0' = some 0 := by decide
  simp only [codeUnit?, upper, lower, zero, Option.bind_eq_bind, Option.bind_some]
  simp
  omega

/-- What is read where a text goes on after the character `c`. -/
def prepend (c : Char) (read : List Char × List Char) : List Char × List Char :=
  (c :: read.1, read.2)

theorem readText_escaped {escaped c : Char} (short : unescape? escaped = some c) (rest : List Char) :
    readText ('\\' :: escaped :: rest) = (readText rest).map (prepend c) := by
  have other : escaped ≠ 'u' := by
    rintro rfl
    cases short
  rw [readText]
  · simp only [short]
    cases readText rest <;> rfl
  · rintro a b c d rest' rfl
    exact absurd rfl other

theorem readText_control {c : Char} (control : c.toNat < 0x20) (rest : List Char) :
    readText ('\\' :: 'u' :: '0' :: '0' :: Nat.digitChar (c.toNat / 16) ::
      Nat.digitChar (c.toNat % 16) :: rest) = (readText rest).map (prepend c) := by
  have unit : c.toNat < 0xD800 ∨ 0xE000 ≤ c.toNat := .inl (by omega)
  rw [readText, codeUnit?_control control]
  simp only [Option.bind_eq_bind, Option.bind_some, if_pos unit, Char.ofNat_toNat]
  cases readText rest <;> rfl

theorem readText_plain {c : Char} (quote : c ≠ '"') (backslash : c ≠ '\\') (graphic : 0x20 ≤ c.toNat)
    (rest : List Char) : readText (c :: rest) = (readText rest).map (prepend c) := by
  rw [readText]
  · simp only [graphic]
    cases readText rest <;> rfl
  · exact quote
  · exact fun _ _ _ _ _ same => absurd same backslash
  · exact fun _ _ same => absurd same backslash

theorem readText_escape (c : Char) (rest : List Char) :
    readText (escape c ++ rest) = (readText rest).map (prepend c) := by
  unfold escape
  split_ifs with quote backslash backspace formFeed lineFeed carriageReturn tab control
  · exact readText_escaped (by rw [quote]; rfl) rest
  · exact readText_escaped (by rw [backslash]; rfl) rest
  · exact readText_escaped (by rw [backspace]; rfl) rest
  · exact readText_escaped (by rw [formFeed]; rfl) rest
  · exact readText_escaped (by rw [lineFeed]; rfl) rest
  · exact readText_escaped (by rw [carriageReturn]; rfl) rest
  · exact readText_escaped (by rw [tab]; rfl) rest
  · exact readText_control control rest
  · exact readText_plain quote backslash (Nat.le_of_not_lt control) rest

theorem readText_flatMap_escape (text rest : List Char) :
    readText (text.flatMap escape ++ '"' :: rest) = some (text, rest) := by
  induction text with
  | nil => rfl
  | cons c text ih =>
      rw [List.flatMap_cons, List.append_assoc, readText_escape, ih]
      rfl

theorem toList_quote (text : String) :
    (quote text).toList = '"' :: (text.toList.flatMap escape ++ ['"']) := by
  simp [quote, String.toList_append, String.toList_ofList]

theorem readScalar_quote (text : String) (rest : List Char) :
    readScalar ((quote text).toList ++ rest) = some (.text text, rest) := by
  rw [toList_quote, List.cons_append, List.append_assoc, readScalar, List.singleton_append,
    readText_flatMap_escape]
  simp

/-! ## Control characters -/

/-- Whether a text has no character below the space, so that it stays within a line. -/
def Graphic (text : List Char) : Prop :=
  ∀ c ∈ text, 0x20 ≤ c.toNat

instance (text : List Char) : Decidable (Graphic text) :=
  List.decidableBAll (fun c : Char => 0x20 ≤ c.toNat) text

theorem Graphic.append {text more : List Char} (graphic : Graphic text) (moreGraphic : Graphic more) :
    Graphic (text ++ more) := by
  intro c member
  rcases List.mem_append.mp member with member | member
  · exact graphic c member
  · exact moreGraphic c member

theorem digitChar_graphic : ∀ digit < 16, 0x20 ≤ (Nat.digitChar digit).toNat := by
  decide

theorem graphic_escape (c : Char) : Graphic (escape c) := by
  unfold escape
  split_ifs with quote backslash backspace formFeed lineFeed carriageReturn tab control
  any_goals decide
  · have upper := digitChar_graphic (c.toNat / 16) (by omega)
    have lower := digitChar_graphic (c.toNat % 16) (by omega)
    have start : Graphic ['\\', 'u', '0', '0'] := by decide
    refine start.append ?_
    rintro _ (_ | ⟨_, _ | ⟨_, ⟨⟩⟩⟩)
    · exact upper
    · exact lower
  · rintro _ (_ | ⟨_, ⟨⟩⟩)
    exact Nat.le_of_not_lt control

theorem graphic_quote (text : String) : Graphic (quote text).toList := by
  have body : Graphic (text.toList.flatMap escape) := by
    intro c member
    obtain ⟨original, _, escaped⟩ := List.mem_flatMap.mp member
    exact graphic_escape original c escaped
  have delimiter : Graphic ['"'] := by decide
  rw [toList_quote]
  exact delimiter.append (body.append delimiter)

end Calculator.Json
