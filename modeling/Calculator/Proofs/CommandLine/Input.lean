import Mathlib
import Calculator.CommandLine.Run
import Calculator.Proofs.CommandLine.Arguments
import Calculator.Proofs.CommandLine.Lines

/-!
# Expressions from an input

A run that reads its expressions from the input writes what it would write of the same expressions given
as arguments. Only a line that is no text shows the difference, and it ends the run.
-/

set_option autoImplicit false

namespace Calculator

/-- The texts among some lines that are evaluated. -/
def expressionsOf (texts : List String) : List String :=
  texts.filter fun text => !isBlankText text

/-- `Evaluates options input expressions`: what a run evaluates are these expressions, which are its
arguments or else the texts of the input up to the first line that is none. -/
inductive Evaluates (options : Options) (input : List UInt8) : List String → Prop where
  | arguments : options.expressions ≠ [] → Evaluates options input options.expressions
  | lines {texts rest} :
      options.expressions = [] → Texts input texts rest →
      Evaluates options input (expressionsOf texts)

/-! ## Reports -/

theorem foldl_joinLines (start : String) (lines : List String) :
    lines.foldl (fun text line => text ++ line ++ "\n") start = start ++ joinLines lines := by
  unfold joinLines
  induction lines generalizing start with
  | nil => simp
  | cons line lines ih =>
      rw [List.foldl_cons, List.foldl_cons, ih, ih ("" ++ line ++ "\n")]
      simp [String.append_assoc]

theorem joinLines_append (lines more : List String) :
    joinLines (lines ++ more) = joinLines lines ++ joinLines more := by
  rw [joinLines, List.foldl_append, foldl_joinLines]
  rfl

namespace Report

theorem ofEnvelope_succeeded (json : Bool) (envelope : Envelope) :
    (ofEnvelope json envelope).succeeded = decide (envelope.status = .ok) := by
  unfold ofEnvelope
  simp only
  split_ifs
  · rfl
  · split <;> rfl

theorem outcome_append_unreadable (reports : List Report) :
    outcome (reports ++ [unreadable]) =
      ⟨1, (outcome reports).output, (outcome reports).diagnostics ++
        "Failed to read from stdin: stream did not contain valid UTF-8\n"⟩ := by
  have line : joinLines unreadable.diagnostics =
      "Failed to read from stdin: stream did not contain valid UTF-8\n" := by
    decide +kernel
  have failed : unreadable.succeeded = false := rfl
  have silent : joinLines unreadable.output = "" := rfl
  simp [outcome, joinLines_append, line, failed, silent]

theorem outcome_exitCode (reports : List Report) :
    (outcome reports).exitCode = 0 ↔ ∀ report ∈ reports, report.succeeded = true := by
  simp [outcome]

end Report

namespace Options

variable (options : Options) (verbosity : Verbosity)

theorem report_succeeded (expression : String) :
    (options.report verbosity expression).succeeded =
      decide ((options.service.answer expression).status = .ok) :=
  Report.ofEnvelope_succeeded options.json (options.service.answer expression)

theorem report_addExpressions (expressions : List String) :
    (options.addExpressions expressions).report verbosity = options.report verbosity :=
  rfl

theorem lineReports_texts (texts : List String) {rest : List (List UInt8)}
    (stops : ∀ line ∈ rest.head?, ∀ text, utf8Bytes text ≠ line) :
    options.lineReports verbosity (texts.map utf8Bytes ++ rest) =
      (expressionsOf texts).map (options.report verbosity) ++
        if rest = [] then [] else [Report.unreadable] := by
  induction texts with
  | nil =>
      cases rest with
      | nil => rfl
      | cons line rest =>
          have undecoded := decodeLine?_eq_none_iff.mpr (stops line rfl)
          simp [expressionsOf, lineReports, undecoded]
  | cons text texts ih =>
      rw [List.map_cons, List.cons_append, lineReports, decodeLine?_utf8Bytes]
      by_cases blank : isBlankText text <;> simp [expressionsOf, blank, ih]

section Run

variable {options : Options} (noHealth : options.healthCheck = false)

include noHealth

theorem reports_of_arguments (given : options.expressions ≠ []) (input : List UInt8) :
    options.reports verbosity input = options.expressions.map (options.report verbosity) := by
  simp [reports, noHealth, given]

theorem reports_of_texts (noExpressions : options.expressions = []) {input : List UInt8}
    {texts : List String} {rest : List (List UInt8)} (read : Texts input texts rest) :
    options.reports verbosity input =
      (expressionsOf texts).map (options.report verbosity) ++
        if rest = [] then [] else [Report.unreadable] := by
  rw [reports, noHealth, noExpressions, lines_iff.mp read.lines,
    lineReports_texts options verbosity texts read.stops]
  rfl

/-- A run reports on what it evaluates, in order, and at most on one thing more, a line that is no
text. -/
theorem reports_of_evaluates {input : List UInt8} {expressions : List String}
    (evaluates : Evaluates options input expressions) :
    ∃ last, options.reports verbosity input =
      expressions.map (options.report verbosity) ++ last ∧
      (last = [] ∨ last = [Report.unreadable]) := by
  cases evaluates with
  | arguments given =>
      exact ⟨[], by rw [reports_of_arguments verbosity noHealth given, List.append_nil], .inl rfl⟩
  | @lines texts rest noExpressions read =>
      refine ⟨_, reports_of_texts verbosity noHealth noExpressions read, ?_⟩
      split_ifs
      · exact .inl rfl
      · exact .inr rfl

end Run

end Options

/-! ## Inputs and arguments -/

open Options in
/-- Expressions after the mark `--` are added to what the arguments before it ask for. A run of those
arguments alone, if it reads the input, evaluates the texts of the input up to the first line that is
none, as it does where they are given after the mark; but it fails if there is such a line. -/
theorem input_agrees_with_arguments {flags : List String} (unmarked : "--" ∉ flags)
    (environment : Option String) (verbosity : Verbosity) (input : List UInt8) :
    (∀ expressions, Invocation.ofArguments (flags ++ "--" :: expressions) environment =
      (Invocation.ofArguments flags environment).map (Invocation.addExpressions expressions)) ∧
    ∀ options, Invocation.ofArguments flags environment = .ok (.run options) →
      options.healthCheck = false → options.expressions = [] →
      ∃ texts rest shared, Texts input texts rest ∧
        (expressionsOf texts = [] → shared = ⟨0, "", ""⟩) ∧
        (expressionsOf texts ≠ [] → ∀ unread,
          ∃ argued, Invocation.ofArguments (flags ++ "--" :: expressionsOf texts) environment =
            .ok argued ∧ argued.outcome verbosity unread = shared) ∧
        (rest = [] →
          (Invocation.run options).outcome verbosity input = shared ∧
          (shared.exitCode = 0 ↔ ∀ expression ∈ expressionsOf texts,
            (options.service.answer expression).status = .ok)) ∧
        (rest ≠ [] →
          (Invocation.run options).outcome verbosity input = ⟨1, shared.output, shared.diagnostics ++
            "Failed to read from stdin: stream did not contain valid UTF-8\n"⟩) := by
  refine ⟨fun expressions => Invocation.ofArguments_append unmarked expressions environment, ?_⟩
  intro options asked noHealth noExpressions
  obtain ⟨texts, rest, read⟩ := exists_texts input
  have reports := reports_of_texts verbosity noHealth noExpressions read
  refine ⟨texts, rest, Report.outcome ((expressionsOf texts).map (options.report verbosity)), read,
    ?_, ?_, ?_, ?_⟩
  · intro none
    rw [none]
    rfl
  · intro some unread
    have added := Invocation.ofArguments_append unmarked (expressionsOf texts) environment
    rw [asked] at added
    have expressions : (options.addExpressions (expressionsOf texts)).expressions =
        expressionsOf texts := by
      rw [addExpressions, noExpressions, List.nil_append]
    have given : (options.addExpressions (expressionsOf texts)).expressions ≠ [] := by
      rwa [expressions]
    have argued : (options.addExpressions (expressionsOf texts)).healthCheck = false := noHealth
    refine ⟨_, added, ?_⟩
    rw [Invocation.addExpressions, Invocation.outcome, Options.run,
      reports_of_arguments verbosity argued given, expressions, report_addExpressions]
  · rintro rfl
    rw [if_pos rfl, List.append_nil] at reports
    refine ⟨?_, ?_⟩
    · rw [Invocation.outcome, Options.run, reports]
    · rw [Report.outcome_exitCode]
      simp [report_succeeded]
  · intro stopped
    rw [Invocation.outcome, Options.run, reports, if_neg stopped, Report.outcome_append_unreadable]

/-- The line `1` is evaluated as the argument `1` is, and the line after it ends the run. -/
theorem input_agrees_with_arguments_invalid :
    "--" ∉ ["--json"] ∧ ∃ shared : Outcome,
      (∃ argued, Invocation.ofArguments ["--json", "--", "1"] none = .ok argued ∧
        argued.outcome none [] = shared) ∧
      (Invocation.run { json := true, maxLength := some 10000 }).outcome none [49, 13, 10, 255] =
        ⟨1, shared.output, shared.diagnostics ++
          "Failed to read from stdin: stream did not contain valid UTF-8\n"⟩ := by
  have unmarked : "--" ∉ ["--json"] := by decide
  obtain ⟨_, runs⟩ := input_agrees_with_arguments unmarked none none [49, 13, 10, 255]
  obtain ⟨texts, rest, shared, read, _, argued, _, failed⟩ :=
    runs { json := true, maxLength := some 10000 } rfl rfl rfl
  have one : utf8Bytes "1" = [49] := decodeLine?_eq_some_iff.mp (by decide +kernel)
  have known : Texts [49, 13, 10, 255] ["1"] [[255]] := by
    refine ⟨lines_iff.mpr ?_, ?_⟩
    · rw [List.map_singleton, one]
      rfl
    · rintro _ ⟨⟩
      exact decodeLine?_eq_none_iff.mp (by decide +kernel)
  obtain ⟨rfl, rfl⟩ := read.unique known
  have given : expressionsOf ["1"] = ["1"] := by decide +kernel
  rw [given] at argued
  exact ⟨unmarked, shared, argued (by simp) [], failed (by simp)⟩

end Calculator
