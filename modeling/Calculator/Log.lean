import Calculator.Engine
import Calculator.Expr.Form

/-!
# Log events

What an operation reports about itself, in the order in which it happens, and the severity by which
events are shown or hidden. Events are values: nothing is written here.
-/

set_option autoImplicit false

namespace Calculator

/-- The severity of an event, from the most to the least severe. -/
inductive Level where
  | error
  | warn
  | info
  | debug
  | trace
  deriving DecidableEq

namespace Level

/-- The place of a level among all, the most severe having place one. -/
def rank : Level → Nat
  | .error => 1
  | .warn => 2
  | .info => 3
  | .debug => 4
  | .trace => 5

/-- The name of a level, filled up to five columns. -/
def label : Level → String
  | .error => "ERROR"
  | .warn => " WARN"
  | .info => " INFO"
  | .debug => "DEBUG"
  | .trace => "TRACE"

end Level

/-- The least severe level that is shown; nothing is shown when it is absent. -/
abbrev Verbosity := Option Level

def Verbosity.shows (verbosity : Verbosity) (level : Level) : Bool :=
  match verbosity with
  | none => false
  | some least => level.rank ≤ least.rank

/-- The levels that are shown when nothing else is asked for. -/
def Verbosity.standard : Verbosity :=
  some .warn

/-- Something that an operation reports about itself. -/
inductive Event where
  /-- A source was read as this number of lexemes, the end marker included. -/
  | tokenized (count : Nat)
  /-- A tree of this depth was made. -/
  | parsed (depth : Nat)
  | evaluated (value : Float)
  | rejected (error : EvalError)
  | invariantViolated (error : EvalError)
  /-- An expression had more characters than allowed. -/
  | overlong (length limit : Nat)
  deriving DecidableEq

namespace Event

def level : Event → Level
  | .tokenized _ => .trace
  | .parsed _ => .trace
  | .evaluated _ => .debug
  | .rejected _ => .debug
  | .invariantViolated _ => .error
  | .overlong _ _ => .warn

def text : Event → String
  | .tokenized count => "tokenized expression count=" ++ count.repr
  | .parsed depth => "parsed expression depth=" ++ depth.repr
  | .evaluated value => "evaluated expression value=" ++ Layout.record.text value
  | .rejected error => "rejected expression err=" ++ error.message
  | .invariantViolated error => "engine invariant violated err=" ++ error.message
  | .overlong length limit =>
      "rejected overlong expression length=" ++ length.repr ++ " limit=" ++ limit.repr

def line (event : Event) : String :=
  event.level.label ++ " " ++ event.text

def lines (verbosity : Verbosity) (events : List Event) : List String :=
  (events.filter fun event => verbosity.shows event.level).map line

end Event

def parseEvents (source : String) : List Event :=
  match tokenize source with
  | .error _ => []
  | .ok lexemes =>
      .tokenized lexemes.length ::
        match parseLexemes lexemes with
        | .error _ => []
        | .ok e => [.parsed e.depth]

def evaluateEvents (source : String) : List Event :=
  parseEvents source ++
    match evaluate source with
    | .error _ => []
    | .ok value => [.evaluated value]

end Calculator
