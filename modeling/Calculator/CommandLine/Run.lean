import Calculator.CommandLine.Options
import Calculator.Envelope
import Calculator.Text.Blank
import Calculator.Text.Lines

/-!
# Runs of the command line

A run evaluates expressions one after the other and reports on each: lines of output, lines of
diagnostics, and whether the evaluation succeeded. Expressions come from the arguments or, if there
are none, from the lines of the input, where blank lines are passed over and a line that is not UTF-8
ends the run. A run fails if any part of it does.
-/

set_option autoImplicit false

namespace Calculator

/-- What one part of a run writes, and whether it succeeded. -/
structure Report where
  output : List String
  diagnostics : List String
  succeeded : Bool
  deriving DecidableEq

/-- What a whole run writes, and the status it ends with. -/
structure Outcome where
  exitCode : Nat
  output : String
  diagnostics : String
  deriving DecidableEq

/-- Lines, each ended by a line feed. -/
def joinLines (lines : List String) : String :=
  lines.foldl (fun text line => text ++ line ++ "\n") ""

namespace Report

/-- What is written of an envelope: in JSON its one line, and otherwise the result as output or the
message as a diagnostic. -/
def ofEnvelope (json : Bool) (envelope : Envelope) : Report :=
  let succeeded := decide (envelope.status = .ok)
  if json then ⟨[envelope.json], [], succeeded⟩
  else
    match envelope.status, envelope.result, envelope.message with
    | .ok, some result, some message =>
        ⟨[Layout.plain.text result ++ " (" ++ message ++ ")"], [], succeeded⟩
    | .ok, some result, none => ⟨[Layout.plain.text result], [], succeeded⟩
    | _, _, message => ⟨[], ["error: " ++ message.getD "unknown"], succeeded⟩

def after (report : Report) (logLines : List String) : Report :=
  { report with diagnostics := logLines ++ report.diagnostics }

def unreadable : Report where
  output := []
  diagnostics := ["Failed to read from stdin: stream did not contain valid UTF-8"]
  succeeded := false

def outcome (reports : List Report) : Outcome where
  exitCode := if reports.all succeeded then 0 else 1
  output := joinLines (reports.flatMap output)
  diagnostics := joinLines (reports.flatMap diagnostics)

end Report

namespace Options

/-- The tree of an expression as it is printed before the result: nothing if trees are not asked
for, or if the expression is too long or does not parse. -/
def treeLines (options : Options) (expression : String) : List String :=
  if options.printTree then
    match options.service.checkLength expression, parse expression with
    | .ok (), .ok e => [Expr.Form.parenthesized.write e]
    | _, _ => []
  else []

def treeEvents (options : Options) (expression : String) : List Event :=
  if options.printTree then
    match options.service.checkLength expression with
    | .ok () => parseEvents expression
    | .error _ => options.service.checkLengthEvents expression
  else []

def report (options : Options) (verbosity : Verbosity) (expression : String) : Report :=
  let events := options.treeEvents expression ++ options.service.evaluateEvents expression
  let answer := (Report.ofEnvelope options.json (options.service.answer expression)).after
    (Event.lines verbosity events)
  { answer with output := options.treeLines expression ++ answer.output }

def healthReport (options : Options) (verbosity : Verbosity) : Report :=
  (Report.ofEnvelope options.json Service.healthAnswer).after
    (Event.lines verbosity (evaluateEvents Service.healthExpression))

def lineReports (options : Options) (verbosity : Verbosity) : List (List UInt8) → List Report
  | [] => []
  | line :: rest =>
      match decodeLine? line with
      | none => [Report.unreadable]
      | some text =>
          if isBlankText text then options.lineReports verbosity rest
          else options.report verbosity text :: options.lineReports verbosity rest

def readsInput (options : Options) : Bool :=
  !options.healthCheck && options.expressions.isEmpty

/-- All reports of a run, whose input is read only if there are no expressions. -/
def reports (options : Options) (verbosity : Verbosity) (input : List UInt8) : List Report :=
  if options.healthCheck then [options.healthReport verbosity]
  else if options.expressions.isEmpty then options.lineReports verbosity (byteLines input)
  else options.expressions.map (options.report verbosity)

def run (options : Options) (verbosity : Verbosity) (input : List UInt8) : Outcome :=
  Report.outcome (options.reports verbosity input)

end Options

def versionLine : String := "arithmetic-engine 0.1.0"

def helpLines : List String :=
  ["calc evaluates arithmetic expressions built from numbers, + - * / and parentheses",
    "",
    "Usage: calc [OPTIONS] [EXPRESSIONS]...",
    "",
    "Arguments:",
    "  [EXPRESSIONS]...  Expressions to evaluate. Read one per line from stdin if none are given",
    "",
    "Options:",
    "  -j, --json                     Print each result as a JSON response envelope",
    "      --max-length <MAX_LENGTH>  Reject expressions longer than this many characters",
    "                                 [env: CALC_MAX_LENGTH=] [default: 10000]",
    "      --no-length-limit          Accept expressions of any length",
    "      --print-ast                Print the parsed expression tree before each result",
    "      --health-check             Evaluate 2+2, print the response and exit",
    "  -h, --help                     Print help",
    "  -V, --version                  Print version"]

def UsageError.outcome (error : UsageError) : Outcome where
  exitCode := 2
  output := ""
  diagnostics := joinLines ["error: " ++ error.message, "", "For more information, try '--help'."]

namespace Invocation

def readsInput : Invocation → Bool
  | .run options => options.readsInput
  | _ => false

def outcome (invocation : Invocation) (verbosity : Verbosity) (input : List UInt8) : Outcome :=
  match invocation with
  | .version => ⟨0, joinLines [versionLine], ""⟩
  | .help => ⟨0, joinLines helpLines, ""⟩
  | .run options => options.run verbosity input

end Invocation

end Calculator
