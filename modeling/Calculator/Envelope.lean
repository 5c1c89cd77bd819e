import Calculator.Json
import Calculator.Service

/-!
# Envelopes

The uniform answer to a request: a status, a result on success, and a message, which failures always
have. Internal errors are answered by one message that tells nothing about the engine. An envelope
is written as one line of JSON with its fields in a fixed order; a number that JSON cannot express
is written as `null`.
-/

set_option autoImplicit false

namespace Calculator

inductive Status where
  | ok
  | fail
  deriving DecidableEq

structure Envelope where
  status : Status
  result : Option Float
  message : Option String
  deriving DecidableEq

/-- The message that stands for every internal error. -/
def internalErrorMessage : String :=
  "Internal error while evaluating the expression."

namespace Envelope

def ok (result : Float) (message : Option String) : Envelope where
  status := .ok
  result := some result
  message := message

def fail (message : String) : Envelope where
  status := .fail
  result := none
  message := some message

def ofError (error : ServiceError) : Envelope :=
  match error with
  | .eval (.internal _) => fail internalErrorMessage
  | error => fail error.message

def ofOutcome : Except ServiceError Float → Envelope
  | .ok value => ok value none
  | .error error => ofError error

def ofResult : Except EvalError Float → Envelope
  | .ok value => ok value none
  | .error error => ofError (.eval error)

end Envelope

namespace Service

def answer (service : Service) (source : String) : Envelope :=
  Envelope.ofOutcome (service.evaluate source)

/-- The expression that shows whether the engine works. -/
def healthExpression : String := "2+2"

/-- Answers a request for a sign that the engine works. The limit on lengths does not apply. -/
def healthAnswer : Envelope :=
  match Calculator.evaluate healthExpression with
  | .ok value => Envelope.ok value (some ("2 + 2 = " ++ Layout.record.text value))
  | .error error => Envelope.ofError (.eval error)

end Service

def Status.name : Status → String
  | .ok => "OK"
  | .fail => "FAIL"

def Envelope.json (envelope : Envelope) : String :=
  "\x7b\"status\":" ++ Json.quote envelope.status.name ++
    ",\"result\":" ++ Json.optional Json.number envelope.result ++
    ",\"message\":" ++ Json.optional Json.quote envelope.message ++ "\x7d"

end Calculator
