import Mathlib
import Calculator.Proofs.CommandLine.Flags
import Calculator.Proofs.CommandLine.Input
import Calculator.Proofs.Service.Diagnostics
import Calculator.Proofs.Service.LengthLimit

/-!
# Modes of output

Runs of the same expressions differ only in what they show of each: results and faults on their own, trees
in front of results, or envelopes. What there is to show of an expression depends on the service and on
nothing that the run is asked to print.
-/

set_option autoImplicit false

namespace Calculator

/-- What there is to show of an expression, each text on a line of its own. -/
structure Showing where
  envelope : Envelope
  tree : Option String
  result : Option String
  fault : Option String

/-- `Shows service source shown`: there is a tree of every expression that is admitted and parsed, a
result if it has a value, and a fault in all other cases. -/
inductive Shows (service : Service) (source : String) : Showing → Prop where
  | valued {e value} :
      service.Admits source → parse source = .ok e → e.eval = .ok value →
      Shows service source
        { envelope := .ok value none
          tree := some (Expr.Form.parenthesized.write e)
          result := some (Layout.plain.text value)
          fault := none }
  | divided {e position} :
      service.Admits source → parse source = .ok e → e.eval = .error (.divisionByZero position) →
      Shows service source
        { envelope := .fail (EvalError.divisionByZero position).message
          tree := some (Expr.Form.parenthesized.write e)
          result := none
          fault := some ("error: " ++ (EvalError.divisionByZero position).message) }
  | misread {error} :
      service.Admits source → parse source = .error error →
      Shows service source
        { envelope := .fail error.message
          tree := none
          result := none
          fault := some ("error: " ++ error.message) }
  | overlong {limit} :
      service.maxLength = some limit → limit < source.length →
      Shows service source
        { envelope := .fail (ServiceError.tooLong source.length limit).message
          tree := none
          result := none
          fault := some ("error: " ++ (ServiceError.tooLong source.length limit).message) }

theorem answer_of_evaluate {service : Service} {source : String} {error : EvalError}
    (admits : service.Admits source) (failed : evaluate source = .error error) :
    service.answer source = .fail error.message := by
  have told : (ServiceError.eval error).isInternal = false := isInternal_of_evaluate failed
  rw [Service.answer, Service.evaluate_of_admits admits, failed]
  change Envelope.ofError (.eval error) = .fail error.message
  rw [Envelope.ofError_eq, told]
  rfl

namespace Shows

theorem exists_of_service (service : Service) (source : String) :
    ∃ shown, Shows service source shown := by
  rcases service.admits_or_lt source with admits | ⟨limit, limited, longer⟩
  · cases parsed : parse source with
    | error => exact ⟨_, .misread admits parsed⟩
    | ok e =>
        cases evaluated : e.eval with
        | ok => exact ⟨_, .valued admits parsed evaluated⟩
        | error =>
            obtain ⟨_, rfl, _⟩ := Expr.exists_slash_of_eval evaluated
            exact ⟨_, .divided admits parsed evaluated⟩
  · exact ⟨_, .overlong limited longer⟩

variable {service : Service} {source : String} {shown : Showing}

theorem answer (shows : Shows service source shown) : service.answer source = shown.envelope := by
  cases shows with
  | valued admits parsed evaluated =>
      rw [Service.answer, Service.evaluate_of_admits admits, evaluate_of_parse parsed, evaluated]
      rfl
  | divided admits parsed evaluated =>
      exact answer_of_evaluate admits (by rw [evaluate_of_parse parsed, evaluated])
  | misread admits parsed =>
      exact answer_of_evaluate admits (by simp only [evaluate, parsed])
  | overlong limited longer =>
      rw [Service.answer, Service.evaluate_of_lt limited longer]
      rfl

theorem ofEnvelope (shows : Shows service source shown) (json : Bool) :
    Report.ofEnvelope json shown.envelope =
      ⟨if json then [shown.envelope.json] else shown.result.toList,
        if json then [] else shown.fault.toList, decide (shown.envelope.status = .ok)⟩ := by
  cases json <;> cases shows <;> rfl

theorem treeLines {options : Options} (shows : Shows options.service source shown) :
    options.treeLines source = if options.printTree then shown.tree.toList else [] := by
  unfold Options.treeLines
  split_ifs
  · cases shows with
    | valued admits parsed | divided admits parsed | misread admits parsed =>
        simp [Service.checkLength_of_admits admits, parsed]
    | overlong limited longer => simp [Service.checkLength_of_lt limited longer]
  · rfl

end Shows

/-! ## Reports -/

namespace Showing

/-- What is written of an expression in one mode of output. -/
def report (json printTree : Bool) (shown : Showing) : Report where
  output := (if printTree then shown.tree.toList else []) ++
    if json then [shown.envelope.json] else shown.result.toList
  diagnostics := if json then [] else shown.fault.toList
  succeeded := decide (shown.envelope.status = .ok)

/-- The status with which a run ends: it succeeds if every envelope reports success. -/
def exitCode (shown : List Showing) : Nat :=
  if ∀ each ∈ shown, each.envelope.status = .ok then 0 else 1

theorem outcome_report (json printTree : Bool) (shown : List Showing) :
    Report.outcome (shown.map (report json printTree)) =
      ⟨exitCode shown, joinLines (shown.flatMap fun each => (each.report json printTree).output),
        joinLines (shown.flatMap fun each => (each.report json printTree).diagnostics)⟩ := by
  simp [Report.outcome, exitCode, report, List.flatMap_map]

variable (shown : List Showing)

theorem outcome_plain :
    Report.outcome (shown.map (report false false)) =
      ⟨exitCode shown, joinLines (shown.filterMap result), joinLines (shown.filterMap fault)⟩ := by
  simp [outcome_report, report, List.filterMap_eq_flatMap_toList]

theorem outcome_json :
    Report.outcome (shown.map (report true false)) =
      ⟨exitCode shown, joinLines (shown.map fun each => each.envelope.json), ""⟩ := by
  have silent : joinLines (shown.flatMap fun _ => []) = "" := by
    rw [List.flatMap_eq_nil_iff.mpr fun _ _ => rfl]
    rfl
  rw [outcome_report, List.map_eq_flatMap]
  simp [report, silent]

theorem outcome_printTree :
    Report.outcome (shown.map (report false true)) =
      ⟨exitCode shown, joinLines (shown.flatMap fun each => each.tree.toList ++ each.result.toList),
        joinLines (shown.filterMap fault)⟩ := by
  simp [outcome_report, report, List.filterMap_eq_flatMap_toList]

end Showing

theorem lines_none (events : List Event) : Event.lines none events = [] := by
  simp [Event.lines, Verbosity.shows]

namespace Options

variable {options : Options}

theorem report_of_shows {source : String} {shown : Showing}
    (shows : Shows options.service source shown) :
    options.report none source = shown.report options.json options.printTree := by
  rw [report, shows.answer, shows.ofEnvelope, shows.treeLines, lines_none]
  rfl

theorem map_report_of_shows {sources : List String} {shown : List Showing}
    (shows : List.Forall₂ (Shows options.service) sources shown) :
    sources.map (options.report none) =
      shown.map (Showing.report options.json options.printTree) := by
  induction shows with
  | nil => rfl
  | cons first _ ih => rw [List.map_cons, List.map_cons, report_of_shows first, ih]

/-- Without a log, a run writes what there is to show of its expressions, in order. -/
theorem run_of_shows (options : Options) {json printTree : Bool} (showsJson : options.json = json)
    (showsTree : options.printTree = printTree) (noHealth : options.healthCheck = false)
    (given : options.expressions ≠ []) {shown : List Showing}
    (shows : List.Forall₂ (Shows options.service) options.expressions shown) (input : List UInt8) :
    options.run none input = Report.outcome (shown.map (Showing.report json printTree)) := by
  rw [run, reports_of_arguments none noHealth given, map_report_of_shows shows, showsJson, showsTree]

end Options

theorem exists_all_shows (service : Service) (sources : List String) :
    ∃ shown, List.Forall₂ (Shows service) sources shown := by
  choose shown shows using Shows.exists_of_service service
  refine ⟨sources.map shown, ?_⟩
  rw [List.forall₂_map_right_iff, List.forall₂_same]
  exact fun source _ => shows source

/-- Arguments that ask for neither JSON nor trees can be given either flag in front. All three runs end with
the same status, zero if every envelope reports success and one if not. Without a log, the plain run writes
all results to the output and all faults to the diagnostics, each in order. With JSON there is the envelope
of every expression and nothing else; with trees there is the same as in the plain run, and each tree just
before the place of its result. -/
theorem modes_agree {arguments : List String} {environment : Option String} {options : Options}
    (asked : Invocation.ofArguments arguments environment = .ok (.run options))
    (noJson : options.json = false) (noTree : options.printTree = false)
    (noHealth : options.healthCheck = false) (given : options.expressions ≠ [])
    (input : List UInt8) :
    ∃ shown jsonRun treeRun,
      List.Forall₂ (Shows options.service) options.expressions shown ∧
      Invocation.ofArguments (Flag.json.name :: arguments) environment = .ok jsonRun ∧
      Invocation.ofArguments (Flag.printTree.name :: arguments) environment = .ok treeRun ∧
      (Invocation.run options).outcome none input =
        ⟨Showing.exitCode shown, joinLines (shown.filterMap Showing.result),
          joinLines (shown.filterMap Showing.fault)⟩ ∧
      jsonRun.outcome none input =
        ⟨Showing.exitCode shown, joinLines (shown.map fun each => each.envelope.json), ""⟩ ∧
      treeRun.outcome none input =
        ⟨Showing.exitCode shown,
          joinLines (shown.flatMap fun each => each.tree.toList ++ each.result.toList),
          joinLines (shown.filterMap Showing.fault)⟩ := by
  obtain ⟨shown, shows⟩ := exists_all_shows options.service options.expressions
  have jsonAsked := Invocation.ofArguments_flag .json (by decide) asked noJson
    (by simp [Options.withFlag, noTree])
  have treeAsked := Invocation.ofArguments_flag .printTree (by decide) asked noTree
    (by simp [Options.withFlag, noJson])
  have plainRun := options.run_of_shows noJson noTree noHealth given shows input
  have jsonRun := (options.withFlag .json).run_of_shows rfl noTree noHealth given shows input
  have treeRun := (options.withFlag .printTree).run_of_shows noJson rfl noHealth given shows input
  refine ⟨shown, _, _, shows, jsonAsked, treeAsked, ?_, ?_, ?_⟩
  · exact plainRun.trans (Showing.outcome_plain shown)
  · exact jsonRun.trans (Showing.outcome_json shown)
  · exact treeRun.trans (Showing.outcome_printTree shown)

/-- Four expressions, of which only the first has a value and only the first two have trees. -/
theorem modes_agree_mixed :
    ∃ shown jsonRun treeRun,
      List.Forall₂ (Shows ⟨some 5⟩) ["2*3", "1/0", "2 3", "10+200"] shown ∧
      Invocation.ofArguments ["--json", "--max-length=5", "2*3", "1/0", "2 3", "10+200"] none =
        .ok jsonRun ∧
      Invocation.ofArguments ["--print-ast", "--max-length=5", "2*3", "1/0", "2 3", "10+200"] none =
        .ok treeRun ∧
      joinLines (shown.filterMap Showing.result) = "6\n" ∧
      jsonRun.outcome none [] =
        ⟨1, joinLines (shown.map fun each => each.envelope.json), ""⟩ ∧
      treeRun.outcome none [] =
        ⟨1, joinLines (shown.flatMap fun each => each.tree.toList ++ each.result.toList),
          joinLines ["error: Error at position 1: Division by zero.",
            "error: Error at position 2: Expected end of expression, but found number 3.",
            "error: Expression is too long: 6 characters, but at most 5 are allowed."]⟩ := by
  let options : Options :=
    { maxLength := some 5, expressions := ["2*3", "1/0", "2 3", "10+200"] }
  have asked : Invocation.ofArguments ["--max-length=5", "2*3", "1/0", "2 3", "10+200"] none =
      .ok (.run options) := by decide +kernel
  obtain ⟨shown, jsonRun, treeRun, shows, jsonAsked, treeAsked, plain, json, tree⟩ :=
    modes_agree asked rfl rfl rfl (by decide) []
  have known : (Invocation.run options).outcome none [] =
      ⟨1, "6\n", joinLines ["error: Error at position 1: Division by zero.",
        "error: Error at position 2: Expected end of expression, but found number 3.",
        "error: Expression is too long: 6 characters, but at most 5 are allowed."]⟩ := by
    decide +kernel
  rw [plain] at known
  obtain ⟨status, results, faults⟩ := Outcome.mk.inj known
  rw [status] at json
  rw [status, faults] at tree
  exact ⟨shown, jsonRun, treeRun, shows, jsonAsked, treeAsked, results, json, tree⟩

end Calculator
