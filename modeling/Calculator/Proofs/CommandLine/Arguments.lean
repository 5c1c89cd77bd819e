import Mathlib
import Calculator.CommandLine.Options

/-!
# Expressions after the end of options

Expressions after the mark `--` are added to what the arguments before it ask for, whatever they look
like, and change nothing else.
-/

set_option autoImplicit false

namespace Calculator

theorem classify_eq_endOfOptions {argument : String}
    (mark : Argument.classify argument = .endOfOptions) : argument = "--" := by
  unfold Argument.classify at mark
  split at mark
  · rename_i hyphens
    exact String.toList_inj.mp hyphens
  · simp only at mark
    split at mark <;> cases mark
  · cases mark
  · cases mark

namespace Options

/-- The mark ends the options also where a value is expected, so what comes before it is read alike. -/
theorem readArguments_append {flags : List String} (unmarked : "--" ∉ flags) (options : Options)
    (expressions : List String) :
    options.readArguments (flags ++ "--" :: expressions) =
      (options.readArguments flags).map (addExpressions · expressions) := by
  have mark : Argument.classify "--" = .endOfOptions := by simp [Argument.classify]
  fun_induction options.readArguments flags with
  | case1 options =>
      rw [List.nil_append, readArguments, mark]
      rfl
  | case2 options argument rest kind ih =>
      rw [List.cons_append, readArguments, kind]
      exact ih fun member => unmarked (List.mem_cons_of_mem _ member)
  | case3 options argument rest kind =>
      rw [classify_eq_endOfOptions kind] at unmarked
      exact absurd List.mem_cons_self unmarked
  | case4 options argument rest letters kind ended set =>
      rw [List.cons_append, readArguments, kind]
      simp only [set]
      rfl
  | case5 options argument rest letters kind changed set ih =>
      rw [List.cons_append, readArguments, kind]
      simp only [set]
      exact ih fun member => unmarked (List.mem_cons_of_mem _ member)
  | case6 options argument name value kind valued =>
      -- The mark stands where the value is expected.
      rw [List.cons_append, readArguments, kind]
      simp only [valued, if_true, List.nil_append, mark]
      rfl
  | case7 options argument name value kind valued length rest lengthKind ended set =>
      rw [List.cons_append, readArguments, kind]
      simp only [valued, if_true, List.cons_append, lengthKind, set]
      rfl
  | case8 options argument name value kind valued length rest lengthKind changed set ih =>
      rw [List.cons_append, readArguments, kind]
      simp only [valued, if_true, List.cons_append, lengthKind, set]
      exact ih fun member => unmarked (List.mem_cons_of_mem _ (List.mem_cons_of_mem _ member))
  | case9 options argument name value kind valued length rest lengthKind =>
      rw [List.cons_append, readArguments, kind]
      simp only [valued, if_true, List.cons_append]
      cases other : Argument.classify length with
      | expression => exact absurd other lengthKind
      | _ => rfl
  | case10 options argument rest name value kind unvalued ended set =>
      rw [List.cons_append, readArguments, kind]
      simp only [unvalued, set]
      rfl
  | case11 options argument rest name value kind unvalued changed set ih =>
      rw [List.cons_append, readArguments, kind]
      simp only [unvalued, set]
      exact ih fun member => unmarked (List.mem_cons_of_mem _ member)

theorem complete_addExpressions (options : Options) (expressions : List String)
    (environment : Option String) :
    (options.addExpressions expressions).complete environment =
      (options.complete environment).map (addExpressions · expressions) := by
  obtain ⟨json, maxLength, noLengthLimit, printTree, healthCheck, first⟩ := options
  cases maxLength with
  | some length => cases json <;> cases printTree <;> rfl
  | none =>
      cases environment with
      | none => cases json <;> cases printTree <;> rfl
      | some value =>
          simp only [complete, addExpressions]
          cases readLength? value with
          | none => rfl
          | some length => cases json <;> cases printTree <;> rfl

theorem exclusive_of_complete {options completed : Options} {environment : Option String}
    (done : options.complete environment = .ok completed) :
    (completed.json && completed.printTree) = false := by
  unfold complete at done
  simp only at done
  split at done
  · cases done
  · split_ifs at done with conflict
    cases done
    simpa using conflict

/-! ## Ends of the reading -/

/-- Whether a run is left to the end of the arguments: before it, there are only faults and requests for
the version or for help. -/
def Unhurried (progress : Progress) : Prop :=
  ∀ options, progress ≠ .error (.ok (.run options))

theorem unhurried_ok (options : Options) : Unhurried (.ok options) :=
  nofun

theorem unhurried_refuse (error : UsageError) : Unhurried (refuse error) :=
  nofun

theorem unhurried_setFlag (options : Options) (flag : Flag) : Unhurried (options.setFlag flag) := by
  cases flag with
  | version | help => exact nofun
  | _ =>
      simp only [setFlag]
      split_ifs
      · exact unhurried_refuse _
      · exact unhurried_ok _

theorem unhurried_setLetters (options : Options) (argument : String) (letters : List Char) :
    Unhurried (options.setLetters argument letters) := by
  fun_induction options.setLetters argument letters with
  | case1 => exact unhurried_ok _
  | case2 => exact unhurried_refuse _
  | case3 options letter rest flag _ ended set =>
      rw [← set]
      exact unhurried_setFlag options flag
  | case4 _ _ _ _ _ _ _ ih => exact ih

theorem unhurried_setMaxLength (options : Options) (value : String) :
    Unhurried (options.setMaxLength value) := by
  unfold setMaxLength
  split
  · exact unhurried_refuse _
  · split
    · exact unhurried_refuse _
    · exact unhurried_ok _

theorem unhurried_setNamed (options : Options) (name : String) (value : Option String) :
    Unhurried (options.setNamed name value) := by
  unfold setNamed
  split
  · exact unhurried_setFlag _ _
  · exact unhurried_refuse _
  · split_ifs
    · exact unhurried_setMaxLength _ _
    · exact unhurried_refuse _
  · exact unhurried_refuse _

theorem unhurried_readArguments (options : Options) (arguments : List String) :
    Unhurried (options.readArguments arguments) := by
  fun_induction options.readArguments arguments with
  | case1 | case3 => exact unhurried_ok _
  | case2 _ _ _ _ ih | case5 _ _ _ _ _ _ _ ih | case8 _ _ _ _ _ _ _ _ _ _ _ ih
  | case11 _ _ _ _ _ _ _ _ _ ih => exact ih
  | case6 | case9 => exact unhurried_refuse _
  | case4 _ _ _ _ _ _ set =>
      rw [← set]
      exact unhurried_setLetters _ _ _
  | case7 _ _ _ _ _ _ _ _ _ _ set =>
      rw [← set]
      exact unhurried_setMaxLength _ _
  | case10 _ _ _ _ _ _ _ _ set =>
      rw [← set]
      exact unhurried_setNamed _ _ _

end Options

namespace Invocation

def addExpressions (expressions : List String) : Invocation → Invocation
  | .run options => .run (options.addExpressions expressions)
  | other => other

theorem ofArguments_append {flags : List String} (unmarked : "--" ∉ flags)
    (expressions : List String) (environment : Option String) :
    ofArguments (flags ++ "--" :: expressions) environment =
      (ofArguments flags environment).map (addExpressions expressions) := by
  rw [ofArguments, ofArguments, Options.readArguments_append unmarked]
  have unhurried := Options.unhurried_readArguments {} flags
  cases read : Options.readArguments {} flags with
  | error ended =>
      rcases ended with error | invocation
      · rfl
      · cases invocation with
        | run options => exact absurd read (unhurried options)
        | _ => rfl
  | ok options =>
      simp only [Except.map, Options.complete_addExpressions]
      cases options.complete environment <;> rfl

theorem ofArguments_eq_run_iff {arguments : List String} {environment : Option String}
    {options : Options} :
    ofArguments arguments environment = .ok (.run options) ↔
      ∃ given, Options.readArguments {} arguments = .ok given ∧
        given.complete environment = .ok options := by
  have unhurried := Options.unhurried_readArguments {} arguments
  unfold ofArguments
  cases read : Options.readArguments {} arguments with
  | error ended =>
      constructor
      · rintro rfl
        exact absurd read (unhurried options)
      · rintro ⟨_, ⟨⟩, _⟩
  | ok given => cases done : given.complete environment <;> simp [done]

theorem exclusive_of_ofArguments {arguments : List String} {environment : Option String}
    {options : Options} (asked : ofArguments arguments environment = .ok (.run options)) :
    (options.json && options.printTree) = false := by
  obtain ⟨given, _, done⟩ := ofArguments_eq_run_iff.mp asked
  exact Options.exclusive_of_complete done

end Invocation

end Calculator
