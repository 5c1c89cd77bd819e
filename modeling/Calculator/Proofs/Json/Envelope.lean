import Mathlib
import Calculator.Envelope
import Calculator.Proofs.Json.Number

/-!
# Envelopes in JSON

What an envelope is written as is one line, and is read back as the envelope, except that a result that
is not finite is lost.
-/

set_option autoImplicit false

namespace Calculator

open Json

/-! ## Reading -/

def Status.ofName? (name : String) : Option Status :=
  if name = "OK" then some .ok else if name = "FAIL" then some .fail else none

namespace Json.Scalar

/-- A number, or `null` for none. -/
def number? : Scalar → Option (Option Float)
  | .null => some none
  | .number value => some (some value)
  | _ => none

/-- A text, or `null` for none. -/
def text? : Scalar → Option (Option String)
  | .null => some none
  | .text value => some (some value)
  | _ => none

end Json.Scalar

/-- The envelope that a line holds: an object of a status, a result and a message, in this order. -/
def Envelope.read? (line : List Char) : Option Envelope := do
  let [("status", .text name), ("result", result), ("message", message)] ← readObject line | none
  let status ← Status.ofName? name
  let result ← result.number?
  let message ← message.text?
  return ⟨status, result, message⟩

/-! ## Members -/

namespace Json

theorem skipSpace_of_head {c : Char} (other : isSpace c = false) (rest : List Char) :
    skipSpace (c :: rest) = c :: rest := by
  rw [skipSpace, List.dropWhile_cons_of_neg (by simp [other])]

theorem readScalar_of_isSpace {c : Char} (space : isSpace c = true) (rest : List Char) :
    readScalar (c :: rest) = none := by
  simp only [isSpace, Bool.or_eq_true, beq_iff_eq] at space
  rcases space with ((rfl | rfl) | rfl) | rfl <;> rfl

theorem skipSpace_of_readScalar {text rest : List Char} {value : Scalar}
    (read : readScalar text = some (value, rest)) : skipSpace text = text := by
  cases text with
  | nil => rfl
  | cons c tail =>
      refine skipSpace_of_head ?_ tail
      by_contra space
      rw [readScalar_of_isSpace (by simpa using space)] at read
      cases read

theorem readMember_quote (key : String) {text rest : List Char} {value : Scalar} {next : Char}
    (read : readScalar text = some (value, next :: rest)) (stops : isSpace next = false) :
    readMember ((quote key).toList ++ ':' :: text) = some ((key, value), next :: rest) := by
  have colon : skipSpace (':' :: text) = ':' :: text := skipSpace_of_head rfl text
  rw [toList_quote, readMember, List.cons_append, skipSpace_of_head rfl, List.append_assoc,
    List.singleton_append]
  simp only [readText_flatMap_escape, Option.bind_eq_bind, Option.bind_some, colon,
    skipSpace_of_readScalar read, read, skipSpace_of_head stops, String.ofList_toList]
  rfl

theorem readMembers_more {count : Nat} {text rest after : List Char} {member : String × Scalar}
    {members : List (String × Scalar)} (read : readMember text = some (member, ',' :: rest))
    (more : readMembers count rest = some (members, after)) :
    readMembers (count + 1) text = some (member :: members, after) := by
  rw [readMembers, read]
  simp only [Option.bind_eq_bind, Option.bind_some, more]
  rfl

theorem readMembers_last (count : Nat) {text rest : List Char} {member : String × Scalar}
    (read : readMember text = some (member, '\x7d' :: rest)) :
    readMembers (count + 1) text = some ([member], rest) := by
  rw [readMembers, read]
  rfl

theorem readObject_quote (key : String) {text rest : List Char} {members : List (String × Scalar)}
    (read : readMembers ('\x7b' :: ((quote key).toList ++ text)).length
      ((quote key).toList ++ text) = some (members, rest)) (last : skipSpace rest = []) :
    readObject ('\x7b' :: ((quote key).toList ++ text)) = some members := by
  rw [toList_quote, List.cons_append] at read ⊢
  rw [readObject, skipSpace_of_head rfl]
  simp only [skipSpace_of_head (c := '"') rfl]
  rw [read]
  simp [guard, last]

theorem readScalar_optional_number (result : Option Float) {following : List Char}
    (ends : EndsDecimal following) :
    readScalar ((optional number result).toList ++ following) =
      some (((result.filter Float.isFinite).elim .null .number), following) := by
  cases result with
  | none => rfl
  | some value =>
      rw [optional]
      by_cases finite : value.isFinite = true
      · rw [Option.filter_some, if_pos finite]
        exact readScalar_of_readNumber (readNumber_number finite ends)
      · rw [Option.filter_some, if_neg finite, number, if_neg finite]
        rfl

theorem readScalar_optional_quote (message : Option String) (following : List Char) :
    readScalar ((optional quote message).toList ++ following) =
      some ((message.elim .null .text), following) := by
  cases message with
  | none => rfl
  | some text => exact readScalar_quote text following

end Json

namespace Envelope

theorem toList_json (envelope : Envelope) :
    envelope.json.toList = '\x7b' :: ((quote "status").toList ++ ':' ::
      ((quote envelope.status.name).toList ++ ',' :: ((quote "result").toList ++ ':' ::
        ((optional number envelope.result).toList ++ ',' :: ((quote "message").toList ++ ':' ::
          ((optional quote envelope.message).toList ++ ['\x7d'])))))) := by
  have status : (quote "status").toList = "\"status\"".toList := by decide +kernel
  have result : (quote "result").toList = "\"result\"".toList := by decide +kernel
  have message : (quote "message").toList = "\"message\"".toList := by decide +kernel
  simp [json, status, result, message]

theorem readObject_json (envelope : Envelope) :
    readObject envelope.json.toList = some [("status", .text envelope.status.name),
      ("result", (envelope.result.filter Float.isFinite).elim .null .number),
      ("message", envelope.message.elim .null .text)] := by
  have ends (rest : List Char) : EndsDecimal (',' :: rest) := .of_head rfl rest
  have message := readMember_quote "message" (readScalar_optional_quote envelope.message ['\x7d']) rfl
  have result := readMember_quote "result" (readScalar_optional_number envelope.result (ends
    ((quote "message").toList ++ ':' :: ((optional quote envelope.message).toList ++ ['\x7d'])))) rfl
  have status := readMember_quote "status" (readScalar_quote envelope.status.name (',' ::
    ((quote "result").toList ++ ':' :: ((optional number envelope.result).toList ++ ',' ::
      ((quote "message").toList ++ ':' ::
        ((optional quote envelope.message).toList ++ ['\x7d'])))))) rfl
  rw [toList_json]
  have nothing : skipSpace [] = [] := rfl
  refine readObject_quote "status" ?_ nothing
  -- The reader has as many steps as the line has characters, and it takes three of them.
  generalize size : ('\x7b' :: _ : List Char).length = count
  have enough : 3 ≤ count := by
    rw [← size]
    simp only [List.length_cons, List.length_append]
    omega
  obtain ⟨more, rfl⟩ := Nat.exists_eq_add_of_le' enough
  exact readMembers_more status (readMembers_more result (readMembers_last more message))

theorem ofName?_name (status : Status) : Status.ofName? status.name = some status := by
  cases status <;> decide

theorem number?_elim (result : Option Float) :
    (result.elim .null .number : Scalar).number? = some result := by
  cases result <;> rfl

theorem text?_elim (message : Option String) :
    (message.elim .null .text : Scalar).text? = some message := by
  cases message <;> rfl

/-- An envelope is read back from what it is written as, but for a result that is not finite. -/
theorem read?_json (envelope : Envelope) :
    read? envelope.json.toList =
      some { envelope with result := envelope.result.filter Float.isFinite } := by
  rw [read?, readObject_json]
  simp only [Option.bind_eq_bind, Option.bind_some, ofName?_name, number?_elim, text?_elim]
  rfl

theorem graphic_json (envelope : Envelope) : Graphic envelope.json.toList := by
  have result : Graphic (optional number envelope.result).toList := by
    cases envelope.result with
    | none => decide
    | some value => exact graphic_number value
  have message : Graphic (optional quote envelope.message).toList := by
    cases envelope.message with
    | none => decide
    | some text => exact graphic_quote text
  have opening : Graphic ['\x7b'] := by decide
  have colon : Graphic [':'] := by decide
  have comma : Graphic [','] := by decide
  have closing : Graphic ['\x7d'] := by decide
  have member (key : String) {text : List Char} (graphic : Graphic text) :
      Graphic ((quote key).toList ++ ':' :: text) :=
    (graphic_quote key).append (colon.append graphic)
  rw [toList_json]
  exact opening.append (member "status" ((graphic_quote _).append (comma.append
    (member "result" (result.append (comma.append (member "message" (message.append closing))))))))

end Envelope

end Calculator
