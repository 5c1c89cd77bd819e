import Calculator.CommandLine.Run

/-!
# The calculator on the command line

Arguments, environment and standard input are read here, and what a run writes is printed. The
environment also names the least severe level of log lines that are shown, or `off`.
-/

set_option autoImplicit false

namespace Calculator

/-- The verbosity of a name, the standard one if there is no such name. -/
def Verbosity.ofName : String → Verbosity
  | "off" => none
  | "error" => some .error
  | "info" => some .info
  | "debug" => some .debug
  | "trace" => some .trace
  | _ => .standard

/-- The name of the environment variable that gives the verbosity. -/
def Verbosity.environmentName : String := "RUST_LOG"

/-- All bytes that a stream still has, after those in `read`. -/
partial def readBytes (stream : IO.FS.Stream) (read : ByteArray) : IO ByteArray := do
  let piece ← stream.read 65536
  if piece.isEmpty then return read else readBytes stream (read ++ piece)

def printOutcome (outcome : Outcome) : IO UInt32 := do
  IO.print outcome.output
  IO.eprint outcome.diagnostics
  return UInt32.ofNat outcome.exitCode

def perform (invocation : Invocation) : IO UInt32 := do
  let verbosity := match ← IO.getEnv Verbosity.environmentName with
    | some name => Verbosity.ofName name
    | none => .standard
  let input ← if invocation.readsInput then readBytes (← IO.getStdin) ByteArray.empty
    else pure ByteArray.empty
  printOutcome (invocation.outcome verbosity input.toList)

end Calculator

open Calculator in
def main (arguments : List String) : IO UInt32 := do
  match Invocation.ofArguments arguments (← IO.getEnv Options.environmentName) with
  | .error error => printOutcome error.outcome
  | .ok invocation => perform invocation
