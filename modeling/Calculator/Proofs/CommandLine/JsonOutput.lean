import Mathlib
import Calculator.Proofs.CommandLine.Input
import Calculator.Proofs.Json.Envelope

/-!
# Output in JSON

A run that is asked for JSON writes one line for each expression that it evaluates and nothing else. Each
line holds the answer of the service.
-/

set_option autoImplicit false

namespace Calculator

open Json

theorem exists_evaluates (options : Options) (input : List UInt8) :
    ∃ expressions, Evaluates options input expressions := by
  by_cases given : options.expressions = []
  · obtain ⟨texts, rest, read⟩ := exists_texts input
    exact ⟨_, .lines given read⟩
  · exact ⟨_, .arguments given⟩

theorem toList_joinLines (lines : List String) :
    (joinLines lines).toList = lines.flatMap fun line => line.toList ++ ['\n'] := by
  induction lines with
  | nil => rfl
  | cons line lines ih =>
      have first : joinLines (line :: lines) = "" ++ line ++ "\n" ++ joinLines lines :=
        foldl_joinLines _ lines
      rw [first, String.toList_append, ih]
      simp

namespace Options

variable {options : Options} (json : options.json = true) (noTree : options.printTree = false)

include json noTree

theorem report_output (verbosity : Verbosity) (expression : String) :
    (options.report verbosity expression).output = [(options.service.answer expression).json] := by
  simp [report, treeLines, noTree, Report.ofEnvelope, json, Report.after]

theorem outcome_output (noHealth : options.healthCheck = false) (verbosity : Verbosity)
    {input : List UInt8} {expressions : List String}
    (evaluates : Evaluates options input expressions) :
    (options.run verbosity input).output =
      joinLines (expressions.map fun expression => (options.service.answer expression).json) := by
  obtain ⟨last, reports, ending⟩ := reports_of_evaluates verbosity noHealth evaluates
  have silent : last.flatMap Report.output = [] := by
    rcases ending with rfl | rfl <;> rfl
  have lines : (expressions.map (options.report verbosity)).flatMap Report.output =
      expressions.map fun expression => (options.service.answer expression).json := by
    rw [List.flatMap_map, List.map_eq_flatMap]
    simp only [report_output json noTree]
  rw [run, Report.outcome, reports, List.flatMap_append, silent, List.append_nil, lines]

end Options

/-- Of a run that is asked for JSON the output is one line for each expression that is evaluated, in
order. No line holds a control character, and each is read back as the answer to its expression, but
for a result that is not finite. -/
theorem json_output {arguments : List String} {environment : Option String} {options : Options}
    (asked : Invocation.ofArguments arguments environment = .ok (.run options))
    (json : options.json = true) (noHealth : options.healthCheck = false) (verbosity : Verbosity)
    (input : List UInt8) :
    ∃ expressions lines, Evaluates options input expressions ∧
      ((Invocation.run options).outcome verbosity input).output.toList =
        lines.flatMap (· ++ ['\n']) ∧
      List.Forall₂ (fun expression line => Graphic line ∧ Envelope.read? line =
        some { options.service.answer expression with
          result := (options.service.answer expression).result.filter Float.isFinite })
        expressions lines := by
  have noTree : options.printTree = false := by
    have exclusive := Invocation.exclusive_of_ofArguments asked
    rwa [json, Bool.true_and] at exclusive
  obtain ⟨expressions, evaluates⟩ := exists_evaluates options input
  let line (expression : String) : List Char := (options.service.answer expression).json.toList
  refine ⟨expressions, expressions.map line, evaluates, ?_, ?_⟩
  · rw [Invocation.outcome, Options.outcome_output json noTree noHealth verbosity evaluates,
      toList_joinLines, List.flatMap_map, List.flatMap_map]
  · rw [List.forall₂_map_right_iff, List.forall₂_same]
    intro expression _
    exact ⟨Envelope.graphic_json _, Envelope.read?_json _⟩

/-- The only line for `1/0` holds the answer to it. -/
theorem json_output_argument :
    ∃ options, Invocation.ofArguments ["--json", "1/0"] none = .ok (.run options) ∧
      options.json = true ∧ options.healthCheck = false ∧
      ∃ line, ((Invocation.run options).outcome none []).output.toList = line ++ ['\n'] ∧
        Graphic line ∧ Envelope.read? line =
          some { options.service.answer "1/0" with
            result := (options.service.answer "1/0").result.filter Float.isFinite } := by
  let options : Options := { json := true, maxLength := some 10000, expressions := ["1/0"] }
  have asked : Invocation.ofArguments ["--json", "1/0"] none = .ok (.run options) := rfl
  refine ⟨options, asked, rfl, rfl, ?_⟩
  obtain ⟨expressions, lines, evaluates, output, held⟩ := json_output asked rfl rfl none []
  have one : expressions = ["1/0"] := by
    cases evaluates with
    | arguments => rfl
    | lines none => cases none
  rw [one] at held
  cases held with
  | cons first others =>
      cases others
      exact ⟨_, by simpa using output, first⟩

end Calculator
