import Mathlib
import Calculator.Envelope
import Calculator.Proofs.Number.ReadBack

/-!
# Diagnostics

A message tells which failure it reports, with all its details. Messages share long beginnings, but no two
wordings go on alike, and whatever is filled into one ends where its next words begin. An envelope hides
only which internal error it is about.
-/

set_option autoImplicit false

namespace Calculator

open Scanning Layout

/-! ## Parts of messages -/

theorem Token.text_inj {token token' : Token} (same : token.text = token'.text) : token = token' := by
  rw [← String.toList_inj] at same
  cases token with
  | number value =>
      cases token' with
      | number value' =>
          have texts : (plain.text value).toList = (plain.text value').toList := by
            simpa [Token.text] using same
          rw [plain.text_inj.mp (String.toList_inj.mp texts)]
      | _ => simp [Token.text] at same
  | _ => cases token' <;> first | rfl | simp [Token.text] at same

theorem Expected.text_append_inj {expected expected' : Expected} {rest rest' : List Char}
    (same : expected.text.toList ++ rest = expected'.text.toList ++ rest') :
    expected = expected' ∧ rest = rest' := by
  by_cases differ : expected = expected'
  · subst differ
    exact ⟨rfl, List.append_cancel_left same⟩
  · cases expected <;> cases expected' <;>
      first
      | exact absurd rfl differ
      | simp [Expected.text] at same

theorem toList_located (position : Nat) (text : String) :
    (EvalError.located position text).toList =
      "Error at position ".toList ++ (position.repr.toList ++ ':' :: ' ' :: text.toList) := by
  unfold EvalError.located
  simp

/-! ## Wordings -/

/-- The wordings of messages, one for each kind of failure. -/
inductive Wording where
  | overlong
  | foreign
  | misplaced
  | incomplete
  | division
  | empty
  | nested
  | endless
  | missing
  | unbalanced
  deriving DecidableEq

/-- The words with which a message begins, after the position if it gives one. -/
def Wording.opening : Wording → String
  | .overlong => "Expression is too long: "
  | .foreign => "Unexpected character '"
  | .misplaced => "Expected "
  | .incomplete => "Unexpected end of expression."
  | .division => "Division by zero."
  | .empty => "Expression is empty."
  | .nested => "Expression is nested too deeply, at most "
  | .endless => "Internal error: Token stream ended without an end marker."
  | .missing => "Internal error: Missing operand for '"
  | .unbalanced => "Internal error: Evaluation left "

/-- The words in front of a position. -/
def locating : String := "Error at position "

/-- What stands in a message before the opening of its wording. -/
def place : Option Nat → List Char
  | none => []
  | some position => locating.toList ++ (position.repr.toList ++ [':', ' '])

/-- `Worded error position wording details`: after the position and the opening of the wording, the
message of an error gives these details. -/
inductive Worded : ServiceError → Option Nat → Wording → List Char → Prop where
  | overlong {length limit} :
      Worded (.tooLong length limit) none .overlong
        (length.repr.toList ++ ' ' :: ("characters, but at most ".toList ++
          (limit.repr.toList ++ ' ' :: "are allowed.".toList)))
  | foreign {position character} :
      Worded (.eval (.unexpectedChar position character)) (some position) .foreign
        (character :: "'.".toList)
  | misplaced {position expected found} :
      Worded (.eval (.unexpectedToken position expected found)) (some position) .misplaced
        (expected.text.toList ++ (", but found ".toList ++ (found.text.toList ++ ".".toList)))
  | incomplete {position} : Worded (.eval (.unexpectedEnd position)) (some position) .incomplete []
  | division {position} : Worded (.eval (.divisionByZero position)) (some position) .division []
  | empty : Worded (.eval .emptyExpression) none .empty []
  | nested {position limit} :
      Worded (.eval (.nestingTooDeep position limit)) (some position) .nested
        (limit.repr.toList ++ ' ' :: "levels are allowed.".toList)
  | endless : Worded (.eval (.internal .tokenStreamExhausted)) none .endless []
  | missing {operator} :
      Worded (.eval (.internal (.missingOperand operator))) none .missing
        (operator.toList ++ "'.".toList)
  | unbalanced {count} :
      Worded (.eval (.internal (.unbalancedStack count))) none .unbalanced
        (count.repr.toList ++ ' ' :: "values on the stack.".toList)

theorem exists_worded (error : ServiceError) :
    ∃ position wording details, Worded error position wording details := by
  cases error with
  | tooLong => exact ⟨_, _, _, .overlong⟩
  | eval error =>
      cases error with
      | unexpectedChar => exact ⟨_, _, _, .foreign⟩
      | unexpectedToken => exact ⟨_, _, _, .misplaced⟩
      | unexpectedEnd => exact ⟨_, _, _, .incomplete⟩
      | divisionByZero => exact ⟨_, _, _, .division⟩
      | emptyExpression => exact ⟨_, _, _, .empty⟩
      | nestingTooDeep => exact ⟨_, _, _, .nested⟩
      | internal cause =>
          cases cause with
          | tokenStreamExhausted => exact ⟨_, _, _, .endless⟩
          | missingOperand => exact ⟨_, _, _, .missing⟩
          | unbalancedStack => exact ⟨_, _, _, .unbalanced⟩

theorem Worded.toList_message {error : ServiceError} {position : Option Nat} {wording : Wording}
    {details : List Char} (worded : Worded error position wording details) :
    error.message.toList = place position ++ (wording.opening.toList ++ details) := by
  cases worded with
  | overlong =>
      unfold ServiceError.message
      simp [place, Wording.opening]
  | endless | missing | unbalanced =>
      unfold ServiceError.message EvalError.message InternalError.message
      simp [place, Wording.opening]
  | _ =>
      unfold ServiceError.message EvalError.message
      simp [place, Wording.opening, toList_located, locating]

/-! ## Messages read from the left -/

/-- Whether two texts differ at some character that both of them have. -/
def Unlike (text text' : List Char) : Prop :=
  ¬ text <+: text' ∧ ¬ text' <+: text

instance (text text' : List Char) : Decidable (Unlike text text') :=
  inferInstanceAs (Decidable (¬ text <+: text' ∧ ¬ text' <+: text))

theorem Unlike.append_ne {text text' : List Char} (unlike : Unlike text text')
    (rest rest' : List Char) : text ++ rest ≠ text' ++ rest' := by
  intro same
  have longer : text' <+: text ++ rest := same ▸ List.prefix_append text' rest'
  rcases List.prefix_or_prefix_of_prefix (List.prefix_append text rest) longer with begins | begins
  · exact unlike.1 begins
  · exact unlike.2 begins

namespace Wording

theorem unlike {w w' : Wording} (differ : w ≠ w') : Unlike w.opening.toList w'.opening.toList := by
  revert differ
  cases w <;> cases w' <;> decide

theorem unlike_locating (w : Wording) : Unlike w.opening.toList locating.toList := by
  cases w <;> decide

theorem unlike_internal (w : Wording) : Unlike w.opening.toList internalErrorMessage.toList := by
  cases w <;> decide

end Wording

section Openings

variable {w w' : Wording} {rest rest' : List Char}

theorem opening_append_inj (same : w.opening.toList ++ rest = w'.opening.toList ++ rest') :
    w = w' ∧ rest = rest' := by
  by_cases equal : w = w'
  · subst equal
    exact ⟨rfl, List.append_cancel_left same⟩
  · exact absurd same ((Wording.unlike equal).append_ne rest rest')

theorem opening_append_ne (position : Nat) :
    place none ++ (w.opening.toList ++ rest) ≠ place (some position) ++ rest' := by
  rw [place, place, List.nil_append, List.append_assoc]
  exact w.unlike_locating.append_ne _ _

theorem place_append_inj {p q : Option Nat}
    (same : place p ++ (w.opening.toList ++ rest) = place q ++ (w'.opening.toList ++ rest')) :
    p = q ∧ w.opening.toList ++ rest = w'.opening.toList ++ rest' := by
  cases p with
  | none =>
      cases q with
      | none => exact ⟨rfl, same⟩
      | some q => exact absurd same (opening_append_ne q)
  | some p =>
      cases q with
      | none => exact absurd same.symm (opening_append_ne p)
      | some q =>
          simp only [place, List.append_assoc, List.cons_append, List.nil_append] at same
          obtain ⟨rfl, rests⟩ := repr_append_inj rfl (List.append_cancel_left same)
          exact ⟨rfl, (List.cons.inj rests).2⟩

end Openings

/-- The details of a wording tell the error, for no detail hides where the next one begins. -/
theorem Worded.inj {a b : ServiceError} {position : Option Nat} {wording : Wording}
    {details details' : List Char} (worded : Worded a position wording details)
    (worded' : Worded b position wording details') (same : details = details') : a = b := by
  cases worded with
  | overlong =>
      cases worded' with
      | overlong =>
          obtain ⟨rfl, rests⟩ := repr_append_inj rfl same
          obtain ⟨rfl, _⟩ := repr_append_inj rfl (List.append_cancel_left rests)
          rfl
  | foreign =>
      cases worded' with
      | foreign =>
          obtain ⟨rfl, _⟩ := List.cons.inj same
          rfl
  | misplaced =>
      cases worded' with
      | misplaced =>
          obtain ⟨rfl, rests⟩ := Expected.text_append_inj same
          have texts := List.append_cancel_right (List.append_cancel_left rests)
          obtain rfl := Token.text_inj (String.toList_inj.mp texts)
          rfl
  | incomplete | division | empty | endless =>
      cases worded'
      rfl
  | nested =>
      cases worded' with
      | nested =>
          obtain ⟨rfl, _⟩ := repr_append_inj rfl same
          rfl
  | missing =>
      cases worded' with
      | missing =>
          obtain rfl := String.toList_inj.mp (List.append_cancel_right same)
          rfl
  | unbalanced =>
      cases worded' with
      | unbalanced =>
          obtain ⟨rfl, _⟩ := repr_append_inj rfl same
          rfl

namespace ServiceError

theorem message_inj {a b : ServiceError} : a.message = b.message ↔ a = b := by
  constructor
  · intro same
    obtain ⟨position, wording, details, worded⟩ := exists_worded a
    obtain ⟨position', wording', details', worded'⟩ := exists_worded b
    rw [← String.toList_inj, worded.toList_message, worded'.toList_message] at same
    obtain ⟨rfl, texts⟩ := place_append_inj same
    obtain ⟨rfl, rests⟩ := opening_append_inj texts
    exact worded.inj worded' rests
  · rintro rfl
    rfl

def isInternal : ServiceError → Bool
  | .tooLong _ _ => false
  | .eval error => error.isInternal

theorem message_ne_internalErrorMessage (error : ServiceError) :
    error.message ≠ internalErrorMessage := by
  obtain ⟨position, wording, details, worded⟩ := exists_worded error
  rw [Ne, ← String.toList_inj, worded.toList_message, ← List.append_nil internalErrorMessage.toList]
  cases position with
  | none => exact wording.unlike_internal.append_ne details []
  | some position =>
      have unlike : Unlike locating.toList internalErrorMessage.toList := by decide
      rw [place, List.append_assoc]
      exact unlike.append_ne _ []

end ServiceError

namespace Envelope

theorem fail_inj {message message' : String} :
    fail message = fail message' ↔ message = message' := by
  simp [fail]

theorem ofError_eq (error : ServiceError) :
    ofError error = fail (if error.isInternal then internalErrorMessage else error.message) := by
  cases error with
  | tooLong => rfl
  | eval error => cases error <;> rfl

/-- Envelopes hide what tells internal errors from one another, and nothing else. -/
theorem ofError_inj {a b : ServiceError} :
    ofError a = ofError b ↔ a = b ∨ a.isInternal = true ∧ b.isInternal = true := by
  have differ (internal : a.isInternal ≠ b.isInternal) : a ≠ b := by
    rintro rfl
    exact internal rfl
  rw [ofError_eq, ofError_eq, fail_inj]
  cases internal : a.isInternal with
  | false =>
      cases internal' : b.isInternal with
      | false => simp [ServiceError.message_inj]
      | true => simp [differ, internal, internal', a.message_ne_internalErrorMessage]
  | true =>
      cases internal' : b.isInternal with
      | false => simp [differ, internal, internal', b.message_ne_internalErrorMessage.symm]
      | true => simp

end Envelope

/-- A message identifies the error that it reports, with numbers compared bit by bit and all NaNs alike.
So does a failure envelope, but for internal errors, which all have the same one; no other error has it. -/
theorem diagnostics_identify (a b : ServiceError) :
    (a.message = b.message ↔ a = b) ∧
    (Envelope.ofError a = Envelope.ofError b ↔
      a = b ∨ a.isInternal = true ∧ b.isInternal = true) ∧
    a.message ≠ internalErrorMessage :=
  ⟨ServiceError.message_inj, Envelope.ofError_inj, a.message_ne_internalErrorMessage⟩

end Calculator
