import Calculator.Service

/-!
# Command-line options

Arguments are read from left to right. An argument that starts with a hyphen is an option, except a
lone hyphen and everything after `--`; all others are expressions. Options are written in full, or as
a cluster of single letters after one hyphen, and may not be repeated. The first fault ends the
reading, and so does a request for the version or for help, whatever follows it.
-/

set_option autoImplicit false

namespace Calculator

/-- What a run of the calculator is asked to do. -/
structure Options where
  /-- Print each result as an envelope in JSON. -/
  json : Bool := false
  /-- The greatest length of an expression, if one is given among the arguments. -/
  maxLength : Option Nat := none
  /-- Accept expressions of any length. -/
  noLengthLimit : Bool := false
  /-- Print each tree before its result. -/
  printTree : Bool := false
  /-- Answer a request for a sign that the engine works, and nothing else. -/
  healthCheck : Bool := false
  /-- The expressions to evaluate. -/
  expressions : List String := []
  deriving DecidableEq

inductive UsageError where
  | unknownOption (argument : String)
  | repeatedOption (name : String)
  | missingValue (name : String)
  | unexpectedValue (name : String)
  | invalidValue (name value : String)
  /-- Trees cannot be printed between envelopes. -/
  | conflict
  deriving DecidableEq

def UsageError.message : UsageError → String
  | .unknownOption argument => "unexpected argument '" ++ argument ++ "'"
  | .repeatedOption name => "the option '" ++ name ++ "' cannot be used more than once"
  | .missingValue name => "a value is required for '" ++ name ++ "'"
  | .unexpectedValue name => "no value is allowed for '" ++ name ++ "'"
  | .invalidValue name value => "invalid value '" ++ value ++ "' for '" ++ name ++ "'"
  | .conflict => "the option '--print-ast' cannot be used with '--json'"

inductive Invocation where
  | version
  | help
  | run (options : Options)
  deriving DecidableEq

/-- The greatest length that can be given. -/
def greatestLength : Nat := 18446744073709551615

/-- A length as it is written in an argument: ASCII digits after an optional plus sign. -/
def readLength? (text : String) : Option Nat :=
  let digits := match text.toList with
    | '+' :: digits => digits
    | digits => digits
  if !digits.isEmpty && digits.all Char.isDigit then
    let length := Nat.ofDigitChars 10 digits 0
    if length ≤ greatestLength then some length else none
  else none

/-- The options that have no value. -/
inductive Flag where
  | json
  | noLengthLimit
  | printTree
  | healthCheck
  | version
  | help
  deriving DecidableEq

namespace Flag

def ofName? : String → Option Flag
  | "--json" => some .json
  | "--no-length-limit" => some .noLengthLimit
  | "--print-ast" => some .printTree
  | "--health-check" => some .healthCheck
  | "--version" => some .version
  | "--help" => some .help
  | _ => none

def ofLetter? : Char → Option Flag
  | 'j' => some .json
  | 'V' => some .version
  | 'h' => some .help
  | _ => none

def name : Flag → String
  | .json => "--json"
  | .noLengthLimit => "--no-length-limit"
  | .printTree => "--print-ast"
  | .healthCheck => "--health-check"
  | .version => "--version"
  | .help => "--help"

end Flag

/-- Where the reading of arguments stands: more options are to be read, or it has ended. -/
abbrev Progress := Except (Except UsageError Invocation) Options

def refuse (error : UsageError) : Progress :=
  .error (.error error)

namespace Options

def setFlag (options : Options) (flag : Flag) : Progress :=
  match flag with
  | .version => .error (.ok .version)
  | .help => .error (.ok .help)
  | .json =>
      if options.json then refuse (.repeatedOption flag.name)
      else .ok { options with json := true }
  | .noLengthLimit =>
      if options.noLengthLimit then refuse (.repeatedOption flag.name)
      else .ok { options with noLengthLimit := true }
  | .printTree =>
      if options.printTree then refuse (.repeatedOption flag.name)
      else .ok { options with printTree := true }
  | .healthCheck =>
      if options.healthCheck then refuse (.repeatedOption flag.name)
      else .ok { options with healthCheck := true }

def setLetters (options : Options) (argument : String) : List Char → Progress
  | [] => .ok options
  | letter :: rest =>
      match Flag.ofLetter? letter with
      | none => refuse (.unknownOption argument)
      | some flag =>
          match options.setFlag flag with
          | .error ended => .error ended
          | .ok options => options.setLetters argument rest

/-- The name of the option that has a value. -/
def maxLengthName : String := "--max-length"

def setMaxLength (options : Options) (value : String) : Progress :=
  match options.maxLength with
  | some _ => refuse (.repeatedOption maxLengthName)
  | none =>
      match readLength? value with
      | none => refuse (.invalidValue maxLengthName value)
      | some length => .ok { options with maxLength := some length }

/-- Adds an option written in full, with the text after its equals sign if it has one. -/
def setNamed (options : Options) (name : String) (value : Option String) : Progress :=
  match Flag.ofName? name, value with
  | some flag, none => options.setFlag flag
  | some flag, some _ => refuse (.unexpectedValue flag.name)
  | none, some value =>
      if name = maxLengthName then options.setMaxLength value else refuse (.unknownOption name)
  | none, none => refuse (.unknownOption name)

def addExpressions (options : Options) (expressions : List String) : Options :=
  { options with expressions := options.expressions ++ expressions }

end Options

inductive Argument where
  | expression
  /-- The mark after which all arguments are expressions. -/
  | endOfOptions
  /-- Letters after one hyphen. -/
  | letters (letters : List Char)
  /-- A full name and the text after its equals sign, if it has one. -/
  | named (name : String) (value : Option String)

/-- How an argument before the end of options is to be taken. -/
def Argument.classify (argument : String) : Argument :=
  match argument.toList with
  | ['-', '-'] => .endOfOptions
  | '-' :: '-' :: rest =>
      let name := rest.takeWhile (· != '=')
      match rest.dropWhile (· != '=') with
      | [] => .named argument none
      | _ :: value => .named (String.ofList ('-' :: '-' :: name)) (some (String.ofList value))
  | '-' :: first :: rest => .letters (first :: rest)
  | _ => .expression

namespace Options

/-- Reads the arguments that follow, after those already in `options`. -/
def readArguments (options : Options) : List String → Progress
  | [] => .ok options
  | argument :: rest =>
      match Argument.classify argument with
      | .expression => (options.addExpressions [argument]).readArguments rest
      | .endOfOptions => .ok (options.addExpressions rest)
      | .letters letters =>
          match options.setLetters argument letters with
          | .error ended => .error ended
          | .ok options => options.readArguments rest
      | .named name value =>
          if name = maxLengthName && value.isNone then
            match rest with
            | [] => refuse (.missingValue name)
            | value :: rest =>
                match Argument.classify value with
                | .expression =>
                    match options.setMaxLength value with
                    | .error ended => .error ended
                    | .ok options => options.readArguments rest
                | _ => refuse (.missingValue name)
          else
            match options.setNamed name value with
            | .error ended => .error ended
            | .ok options => options.readArguments rest

/-- The name of the environment variable that gives a greatest length when no argument does. -/
def environmentName : String := "CALC_MAX_LENGTH"

/-- Completes options that have been read: the greatest length comes from the environment or else is
the default, and options that exclude each other are refused. -/
def complete (options : Options) (environment : Option String) : Except UsageError Options :=
  let withLength : Except UsageError Options :=
    match options.maxLength, environment with
    | some _, _ => .ok options
    | none, none => .ok { options with maxLength := some defaultMaxLength }
    | none, some value =>
        match readLength? value with
        | none => .error (.invalidValue environmentName value)
        | some length => .ok { options with maxLength := some length }
  match withLength with
  | .error error => .error error
  | .ok options =>
      if options.json && options.printTree then .error .conflict
      else .ok options

def service (options : Options) : Service where
  maxLength := if options.noLengthLimit then none else options.maxLength

end Options

/-- What the arguments ask for, with the value of the environment variable if it is set. -/
def Invocation.ofArguments (arguments : List String) (environment : Option String) :
    Except UsageError Invocation :=
  match Options.readArguments {} arguments with
  | .error ended => ended
  | .ok options =>
      match options.complete environment with
      | .error error => .error error
      | .ok options => .ok (.run options)

end Calculator
