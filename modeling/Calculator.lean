import Calculator.CommandLine.Options
import Calculator.CommandLine.Run
import Calculator.Decimal
import Calculator.Engine
import Calculator.Envelope
import Calculator.EvalError
import Calculator.Evaluation
import Calculator.Expr.Basic
import Calculator.Expr.Form
import Calculator.Json
import Calculator.Layout
import Calculator.Log
import Calculator.Magnitude.Basic
import Calculator.Magnitude.Nearest
import Calculator.Magnitude.Shortest
import Calculator.Main
import Calculator.Operator
import Calculator.Parser.Basic
import Calculator.Parser.Expression
import Calculator.Rounding
import Calculator.Service
import Calculator.Text.Blank
import Calculator.Text.Lines
import Calculator.Token.Basic
import Calculator.Token.Scanner
import Calculator.Proofs.Evaluation.Semantics
import Calculator.Proofs.Evaluation.Refinement
import Calculator.Proofs.Evaluation.Alike
import Calculator.Proofs.Grammar.Derivation
import Calculator.Proofs.Grammar.Traversal
import Calculator.Proofs.Grammar.Beginning
import Calculator.Proofs.Grammar.Step
import Calculator.Proofs.Grammar.Reading
import Calculator.Proofs.Grammar.Nesting
import Calculator.Proofs.Grammar.Limit
import Calculator.Proofs.Grammar.Sentence
import Calculator.Proofs.Grammar.Recognition
import Calculator.Proofs.Grammar.FirstError
import Calculator.Proofs.Grammar.Splitting
import Calculator.Proofs.Grammar.Lookahead
import Calculator.Proofs.Grammar.Calls
import Calculator.Proofs.Grammar.Offsets
import Calculator.Proofs.Number.Nearest
import Calculator.Proofs.Number.PlainText
import Calculator.Proofs.Number.Sign
import Calculator.Proofs.Number.Value
import Calculator.Proofs.Number.Rounding
import Calculator.Proofs.Number.Zeros
import Calculator.Proofs.Number.Characters
import Calculator.Proofs.Number.ReadBack
import Calculator.Proofs.Scanning.Cover
import Calculator.Proofs.Scanning.Partition
import Calculator.Proofs.Scanning.Tokenization
import Calculator.Proofs.Scanning.Spacing
import Calculator.Proofs.Scanning.Numeral
import Calculator.Proofs.Engine.Position
import Calculator.Proofs.Engine.SourceOrder
import Calculator.Proofs.Engine.TokenSequence
import Calculator.Proofs.Json.Reader
import Calculator.Proofs.Json.Text
import Calculator.Proofs.Json.Number
import Calculator.Proofs.Json.Envelope
import Calculator.Proofs.Service.Diagnostics
import Calculator.Proofs.Service.LengthLimit
import Calculator.Proofs.CommandLine.Arguments
import Calculator.Proofs.CommandLine.Flags
import Calculator.Proofs.CommandLine.Lines
import Calculator.Proofs.CommandLine.Input
import Calculator.Proofs.CommandLine.JsonOutput
import Calculator.Proofs.CommandLine.Modes
import Calculator.Proofs.Printing.Form
import Calculator.Proofs.Printing.RoundTrip
import Calculator.Proofs.Printing.Result
import Calculator.Proofs.Evaluation.Congruence
import Calculator.Proofs.Printing.Unambiguous
import Calculator.Proofs.Printing.Record
import Calculator.Proofs.Trees.Depth
import Calculator.Proofs.Trees.Equality
