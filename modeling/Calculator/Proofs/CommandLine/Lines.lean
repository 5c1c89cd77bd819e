import Mathlib
import Calculator.Text.Lines

/-!
# Lines of an input

Where the lines of an input end, and which of them are texts. The texts before the first line that is
none are all that is read.
-/

set_option autoImplicit false

namespace Calculator

/-- The bytes of a text in UTF-8. -/
def utf8Bytes (text : String) : List UInt8 :=
  text.toUTF8.data.toList

/-- `Content piece line`: the bytes before a line feed are those of the line, and perhaps one carriage
return at their end. -/
inductive Content : List UInt8 → List UInt8 → Prop where
  | returned {line} : Content (line ++ [13]) line
  | plain {line} : line.getLast? ≠ some 13 → Content line line

/-- `Lines bytes lines`: the bytes are those lines, each ended by a line feed. The end of the bytes ends
a line too, unless it would be empty. -/
inductive Lines : List UInt8 → List (List UInt8) → Prop where
  | nil : Lines [] []
  | last {line} : line ≠ [] → 10 ∉ line → Lines line [line]
  | ended {piece line rest lines} :
      10 ∉ piece → Content piece line → Lines rest lines →
      Lines (piece ++ 10 :: rest) (line :: lines)

/-- `Texts input texts rest`: the lines of an input are these texts, and then `rest`, which does not
begin with a line of text. -/
structure Texts (input : List UInt8) (texts : List String) (rest : List (List UInt8)) : Prop where
  lines : Lines input (texts.map utf8Bytes ++ rest)
  stops : ∀ line ∈ rest.head?, ∀ text, utf8Bytes text ≠ line

theorem decodeLine?_utf8Bytes (text : String) : decodeLine? (utf8Bytes text) = some text := by
  have bytes : (⟨(utf8Bytes text).toArray⟩ : ByteArray) = text.toUTF8 := by
    simp [utf8Bytes]
  rw [decodeLine?, bytes, String.fromUTF8?, String.toUTF8_eq_toByteArray, dif_pos text.isValidUTF8]
  rfl

theorem decodeLine?_eq_some_iff {line : List UInt8} {text : String} :
    decodeLine? line = some text ↔ utf8Bytes text = line := by
  constructor
  · intro decoded
    unfold decodeLine? String.fromUTF8? at decoded
    split at decoded <;> cases decoded
    rfl
  · rintro rfl
    exact decodeLine?_utf8Bytes text

theorem decodeLine?_eq_none_iff {line : List UInt8} :
    decodeLine? line = none ↔ ∀ text, utf8Bytes text ≠ line := by
  rw [Option.eq_none_iff_forall_ne_some]
  exact forall_congr' fun text => not_congr decodeLine?_eq_some_iff

/-! ## Lines -/

theorem content_withoutReturn (reversed : List UInt8) :
    Content reversed.reverse (withoutReturn reversed) := by
  unfold withoutReturn
  split
  · rw [List.reverse_cons]
    exact .returned
  · rename_i other
    refine .plain ?_
    rw [List.getLast?_reverse]
    intro head
    obtain ⟨more, returned⟩ := List.head?_eq_some_iff.mp head
    exact other more returned

theorem Content.eq {piece line : List UInt8} (content : Content piece line) :
    withoutReturn piece.reverse = line := by
  cases content with
  | returned => simp [withoutReturn]
  | plain last =>
      unfold withoutReturn
      split
      · rename_i returned
        rw [← List.head?_reverse, returned] at last
        exact absurd rfl last
      · exact List.reverse_reverse _

theorem linesFrom_of_not_mem {piece : List UInt8} (unbroken : 10 ∉ piece)
    (reversed rest : List UInt8) :
    linesFrom reversed (piece ++ rest) = linesFrom (piece.reverse ++ reversed) rest := by
  induction piece generalizing reversed with
  | nil => rfl
  | cons byte piece ih =>
      rw [List.mem_cons, not_or] at unbroken
      rw [List.cons_append, linesFrom, if_neg (Ne.symm unbroken.1), ih unbroken.2]
      simp

theorem Lines.eq {bytes : List UInt8} {lines : List (List UInt8)} (read : Lines bytes lines) :
    byteLines bytes = lines := by
  unfold byteLines
  induction read with
  | nil => rfl
  | @last line filled unbroken =>
      have whole := linesFrom_of_not_mem unbroken [] []
      rw [List.append_nil, List.append_nil] at whole
      simp [whole, linesFrom, filled]
  | ended unbroken content _ ih =>
      rw [linesFrom_of_not_mem unbroken, List.append_nil, linesFrom, if_pos rfl, content.eq, ih]

theorem lines_linesFrom {reversed : List UInt8} (unbroken : 10 ∉ reversed) (bytes : List UInt8) :
    Lines (reversed.reverse ++ bytes) (linesFrom reversed bytes) := by
  -- What is held back is the beginning of a piece, so no line feed is in it.
  induction bytes generalizing reversed with
  | nil =>
      rw [List.append_nil, linesFrom]
      split_ifs with empty
      · rw [List.isEmpty_iff.mp empty]
        exact .nil
      · refine .last ?_ (by simpa using unbroken)
        simpa using empty
  | cons byte bytes ih =>
      rw [linesFrom]
      split_ifs with feed
      · subst feed
        have nothing : 10 ∉ ([] : List UInt8) := nofun
        exact .ended (by simpa using unbroken) (content_withoutReturn reversed) (ih nothing)
      · have longer : 10 ∉ byte :: reversed := by
          rw [List.mem_cons, not_or]
          exact ⟨Ne.symm feed, unbroken⟩
        simpa using ih longer

theorem lines_iff {bytes : List UInt8} {lines : List (List UInt8)} :
    Lines bytes lines ↔ byteLines bytes = lines := by
  refine ⟨Lines.eq, ?_⟩
  rintro rfl
  have nothing : 10 ∉ ([] : List UInt8) := nofun
  exact lines_linesFrom nothing bytes

/-! ## Texts -/

theorem exists_texts_append (lines : List (List UInt8)) :
    ∃ (texts : List String) (rest : List (List UInt8)), lines = texts.map utf8Bytes ++ rest ∧
      ∀ line ∈ rest.head?, ∀ text, utf8Bytes text ≠ line := by
  induction lines with
  | nil => exact ⟨[], [], rfl, nofun⟩
  | cons line lines ih =>
      cases decoded : decodeLine? line with
      | none =>
          refine ⟨[], line :: lines, rfl, ?_⟩
          rintro _ ⟨⟩
          exact decodeLine?_eq_none_iff.mp decoded
      | some text =>
          obtain ⟨texts, rest, rfl, stops⟩ := ih
          rw [← decodeLine?_eq_some_iff.mp decoded]
          exact ⟨text :: texts, rest, rfl, stops⟩

theorem utf8Bytes_inj {text other : String} (same : utf8Bytes text = utf8Bytes other) :
    text = other := by
  have decoded := decodeLine?_utf8Bytes text
  rw [same, decodeLine?_utf8Bytes] at decoded
  exact (Option.some.inj decoded).symm

theorem texts_append_unique {texts others : List String} {rest otherRest : List (List UInt8)}
    (same : texts.map utf8Bytes ++ rest = others.map utf8Bytes ++ otherRest)
    (stops : ∀ line ∈ rest.head?, ∀ text, utf8Bytes text ≠ line)
    (otherStops : ∀ line ∈ otherRest.head?, ∀ text, utf8Bytes text ≠ line) :
    texts = others ∧ rest = otherRest := by
  induction texts generalizing others with
  | nil =>
      cases others with
      | nil => exact ⟨rfl, same⟩
      | cons other others =>
          rw [List.map_nil, List.nil_append] at same
          subst same
          exact absurd rfl (stops _ rfl other)
  | cons text texts ih =>
      cases others with
      | nil =>
          rw [List.map_nil, List.nil_append] at same
          subst same
          exact absurd rfl (otherStops _ rfl text)
      | cons other others =>
          obtain ⟨first, later⟩ := List.cons.inj same
          obtain ⟨rfl, rfl⟩ := ih later
          exact ⟨by rw [utf8Bytes_inj first], rfl⟩

theorem Texts.unique {input : List UInt8} {texts others : List String}
    {rest otherRest : List (List UInt8)} (read : Texts input texts rest)
    (otherRead : Texts input others otherRest) : texts = others ∧ rest = otherRest :=
  texts_append_unique (read.lines.eq.symm.trans otherRead.lines.eq) read.stops otherRead.stops

theorem exists_texts (input : List UInt8) : ∃ texts rest, Texts input texts rest := by
  obtain ⟨texts, rest, split, stops⟩ := exists_texts_append (byteLines input)
  exact ⟨texts, rest, lines_iff.mpr split, stops⟩

end Calculator
