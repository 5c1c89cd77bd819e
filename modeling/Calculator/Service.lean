import Calculator.Log

/-!
# The service

The engine takes any text. The service puts a limit on its length, counted in characters, in front
of the engine, and adds the length to the ways in which a request can fail.
-/

set_option autoImplicit false

namespace Calculator

inductive ServiceError where
  /-- The expression has `length` characters, more than the allowed `limit`. -/
  | tooLong (length limit : Nat)
  /-- The engine rejected the expression. -/
  | eval (error : EvalError)
  deriving DecidableEq

def ServiceError.message : ServiceError → String
  | .tooLong length limit =>
      "Expression is too long: " ++ length.repr ++ " characters, but at most " ++ limit.repr ++
        " are allowed."
  | .eval error => error.message

/-- The greatest number of characters in an expression when nothing else is asked for. -/
def defaultMaxLength : Nat := 10000

/-- A service and its greatest number of characters in an expression; without one, expressions may
have any length. -/
structure Service where
  maxLength : Option Nat
  deriving DecidableEq

namespace Service

def standard : Service where
  maxLength := some defaultMaxLength

/-- Accepts an expression that is not too long. -/
def checkLength (service : Service) (source : String) : Except ServiceError Unit :=
  match service.maxLength with
  | none => .ok ()
  | some limit =>
      if limit < source.length then .error (.tooLong source.length limit) else .ok ()

/-- The value of an expression that is not too long. -/
def evaluate (service : Service) (source : String) : Except ServiceError Float :=
  match service.checkLength source with
  | .error error => .error error
  | .ok () =>
      match Calculator.evaluate source with
      | .error error => .error (.eval error)
      | .ok value => .ok value

def checkLengthEvents (service : Service) (source : String) : List Event :=
  match service.checkLength source with
  | .error (.tooLong length limit) => [.overlong length limit]
  | _ => []

def evaluateEvents (service : Service) (source : String) : List Event :=
  match service.checkLength source with
  | .error _ => service.checkLengthEvents source
  | .ok () =>
      Calculator.evaluateEvents source ++
        match Calculator.evaluate source with
        | .ok _ => []
        | .error error =>
            if error.isInternal then [.invariantViolated error] else [.rejected error]

end Service

end Calculator
