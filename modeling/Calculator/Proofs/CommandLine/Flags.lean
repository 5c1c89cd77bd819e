import Mathlib
import Calculator.Proofs.CommandLine.Arguments

/-!
# Flags in front of other arguments

A flag that arguments do not give can be put in front of them. What they ask for is asked for with that flag
as well, and nothing else changes.
-/

set_option autoImplicit false

namespace Calculator

namespace Flag

/-- Whether a flag belongs to a run. The others ask for a text and end the reading. -/
def Lasts (flag : Flag) : Prop :=
  flag ≠ .version ∧ flag ≠ .help

instance (flag : Flag) : Decidable flag.Lasts :=
  inferInstanceAs (Decidable (flag ≠ .version ∧ flag ≠ .help))

/-- Whether a flag has been given. -/
def given (options : Options) : Flag → Bool
  | .json => options.json
  | .noLengthLimit => options.noLengthLimit
  | .printTree => options.printTree
  | .healthCheck => options.healthCheck
  | .version | .help => false

theorem classify_name (flag : Flag) : Argument.classify flag.name = .named flag.name none := by
  cases flag <;> rfl

theorem ofName?_name (flag : Flag) : ofName? flag.name = some flag := by
  cases flag <;> rfl

theorem name_ne_maxLengthName (flag : Flag) : flag.name ≠ Options.maxLengthName := by
  cases flag <;> decide

end Flag

namespace Options

def withFlag (options : Options) : Flag → Options
  | .json => { options with json := true }
  | .noLengthLimit => { options with noLengthLimit := true }
  | .printTree => { options with printTree := true }
  | .healthCheck => { options with healthCheck := true }
  | .version | .help => options

/-- A greatest length that replaces the one that options have. -/
def withLength (options : Options) (length : Nat) : Options :=
  { options with maxLength := some length }

theorem withLength_of_eq {options : Options} {length : Nat}
    (limited : options.maxLength = some length) : options.withLength length = options := by
  cases options
  cases limited
  rfl

section Fields

variable (options : Options) (flag : Flag)

@[simp] theorem withFlag_maxLength : (options.withFlag flag).maxLength = options.maxLength := by
  cases flag <;> rfl

theorem withFlag_withLength (length : Nat) :
    (options.withLength length).withFlag flag = (options.withFlag flag).withLength length := by
  cases flag <;> rfl

theorem withFlag_addExpressions (expressions : List String) :
    (options.addExpressions expressions).withFlag flag =
      (options.withFlag flag).addExpressions expressions := by
  cases flag <;> rfl

theorem withFlag_comm (other : Flag) :
    (options.withFlag other).withFlag flag = (options.withFlag flag).withFlag other := by
  cases flag <;> cases other <;> rfl

@[simp] theorem given_withLength (length : Nat) :
    flag.given (options.withLength length) = flag.given options := by
  cases flag <;> rfl

@[simp] theorem given_addExpressions (expressions : List String) :
    flag.given (options.addExpressions expressions) = flag.given options := by
  cases flag <;> rfl

theorem given_withFlag_self (lasts : flag.Lasts) : flag.given (options.withFlag flag) = true := by
  cases flag with
  | version => exact absurd rfl lasts.1
  | help => exact absurd rfl lasts.2
  | _ => rfl

theorem given_withFlag_of_ne {flag other : Flag} (differ : flag ≠ other) :
    flag.given (options.withFlag other) = flag.given options := by
  cases flag <;> cases other <;> first | rfl | exact absurd rfl differ

end Fields

/-! ## Reading after a flag -/

theorem setFlag_eq_ok_iff {options result : Options} {flag : Flag} :
    options.setFlag flag = .ok result ↔
      flag.Lasts ∧ flag.given options = false ∧ result = options.withFlag flag := by
  have unset (given : Bool) (error : UsageError) (changed : Options) :
      (if given then refuse error else .ok changed) = .ok result ↔
        given = false ∧ result = changed := by
    cases given <;> simp [refuse, eq_comm]
  cases flag with
  | version | help => simp [setFlag, Flag.Lasts]
  | _ => simp [setFlag, Flag.Lasts, Flag.given, withFlag, unset]

theorem setMaxLength_eq_ok_iff {options result : Options} {value : String} :
    options.setMaxLength value = .ok result ↔
      options.maxLength = none ∧ ∃ length, readLength? value = some length ∧
        result = options.withLength length := by
  unfold setMaxLength
  cases limit : options.maxLength with
  | some => simp [refuse]
  | none =>
      cases readLength? value with
      | none => simp [refuse]
      | some length => simp [withLength, eq_comm]

/-- `Carries flag step`: a step of the reading that ends without a flag did not begin with it, and would do
the same after it. -/
def Carries (flag : Flag) (step : Options → Progress) : Prop :=
  ∀ options result, step options = .ok result → flag.given result = false →
    flag.given options = false ∧ step (options.withFlag flag) = .ok (result.withFlag flag)

theorem Carries.andThen {flag : Flag} {first second : Options → Progress}
    (carries : Carries flag first) (later : Carries flag second) :
    Carries flag fun options =>
      match first options with
      | .error ended => .error ended
      | .ok options => second options := by
  intro options result done absent
  cases halfway : first options with
  | error ended =>
      simp only [halfway] at done
      cases done
  | ok changed =>
      simp only [halfway] at done
      obtain ⟨absent, after⟩ := later changed result done absent
      obtain ⟨absent, before⟩ := carries options changed halfway absent
      exact ⟨absent, by simp only [before, after]⟩

variable (flag : Flag)

theorem carries_ok : Carries flag .ok := by
  rintro options _ ⟨⟩ absent
  exact ⟨absent, rfl⟩

theorem carries_refuse (error : UsageError) : Carries flag fun _ => refuse error :=
  nofun

theorem carries_addExpressions (expressions : List String) :
    Carries flag fun options => .ok (options.addExpressions expressions) := by
  rintro options _ ⟨⟩ absent
  rw [given_addExpressions] at absent
  exact ⟨absent, by rw [withFlag_addExpressions]⟩

theorem carries_setFlag (other : Flag) : Carries flag (setFlag · other) := by
  intro options result set absent
  obtain ⟨lasts, unset, rfl⟩ := setFlag_eq_ok_iff.mp set
  have differ : flag ≠ other := by
    rintro rfl
    rw [given_withFlag_self options flag lasts] at absent
    cases absent
  rw [given_withFlag_of_ne options differ] at absent
  refine ⟨absent, setFlag_eq_ok_iff.mpr ⟨lasts, ?_, withFlag_comm options flag other⟩⟩
  rwa [given_withFlag_of_ne options differ.symm]

theorem carries_setLetters (argument : String) (letters : List Char) :
    Carries flag (setLetters · argument letters) := by
  induction letters with
  | nil => exact carries_ok flag
  | cons letter rest ih =>
      simp only [setLetters]
      cases Flag.ofLetter? letter with
      | none => exact carries_refuse flag _
      | some other => exact (carries_setFlag flag other).andThen ih

theorem carries_setMaxLength (value : String) : Carries flag (setMaxLength · value) := by
  intro options result set absent
  obtain ⟨unlimited, length, read, rfl⟩ := setMaxLength_eq_ok_iff.mp set
  rw [given_withLength] at absent
  refine ⟨absent, setMaxLength_eq_ok_iff.mpr ⟨?_, length, read, withFlag_withLength options flag length⟩⟩
  rw [withFlag_maxLength, unlimited]

theorem carries_setNamed (name : String) (value : Option String) :
    Carries flag (setNamed · name value) := by
  unfold setNamed
  split
  · exact carries_setFlag flag _
  · exact carries_refuse flag _
  · split_ifs
    · exact carries_setMaxLength flag _
    · exact carries_refuse flag _
  · exact carries_refuse flag _

/-- Arguments that do not give a flag are read alike after it. -/
theorem carries_readArguments : (arguments : List String) → Carries flag (readArguments · arguments)
  | [] => carries_ok flag
  | argument :: rest => by
      simp only [readArguments]
      cases Argument.classify argument with
      | expression => exact (carries_addExpressions flag [argument]).andThen (carries_readArguments rest)
      | endOfOptions => exact carries_addExpressions flag rest
      | letters letters =>
          exact (carries_setLetters flag argument letters).andThen (carries_readArguments rest)
      | named name value =>
          simp only
          split_ifs
          · cases rest with
            | nil => exact carries_refuse flag _
            | cons length rest =>
                -- The value of an option is the argument after it.
                simp only
                cases Argument.classify length with
                | expression =>
                    exact (carries_setMaxLength flag length).andThen (carries_readArguments rest)
                | _ => exact carries_refuse flag _
          · exact (carries_setNamed flag name value).andThen (carries_readArguments rest)

theorem readArguments_flag (options : Options) (arguments : List String) :
    options.readArguments (flag.name :: arguments) =
      match options.setFlag flag with
      | .error ended => .error ended
      | .ok options => options.readArguments arguments := by
  rw [readArguments, flag.classify_name]
  simp only [flag.name_ne_maxLengthName, setNamed, flag.ofName?_name, decide_false, Bool.false_and]
  rfl

/-- Completing options gives them a greatest length that depends on nothing else among them. -/
theorem exists_length_of_complete {options completed : Options} {environment : Option String}
    (done : options.complete environment = .ok completed) :
    ∃ length, completed = options.withLength length ∧
      ∀ other : Options, other.maxLength = options.maxLength →
        (other.json && other.printTree) = false →
        other.complete environment = .ok (other.withLength length) := by
  -- The length comes from the arguments, from the default or from the environment.
  unfold complete at done ⊢
  cases limit : options.maxLength with
  | some length =>
      simp only [limit] at done
      split_ifs at done
      cases done
      refine ⟨length, (withLength_of_eq limit).symm, ?_⟩
      intro other same exclusive
      simp [same, exclusive, withLength_of_eq same]
  | none =>
      cases environment with
      | none =>
          simp only [limit] at done
          split_ifs at done
          cases done
          refine ⟨_, rfl, ?_⟩
          intro other same exclusive
          simp [same, exclusive, withLength]
      | some text =>
          cases read : readLength? text with
          | none =>
              simp only [limit, read] at done
              cases done
          | some length =>
              simp only [limit, read] at done
              split_ifs at done
              cases done
              refine ⟨length, rfl, ?_⟩
              intro other same exclusive
              simp [same, exclusive, read, withLength]

end Options

namespace Invocation

open Options

/-- A flag that is not among some arguments is added to what they ask for by putting it in front of them,
if it does not exclude another one. -/
theorem ofArguments_flag (flag : Flag) (lasts : flag.Lasts) {arguments : List String}
    {environment : Option String} {options : Options}
    (asked : ofArguments arguments environment = .ok (.run options))
    (absent : flag.given options = false)
    (exclusive : ((options.withFlag flag).json && (options.withFlag flag).printTree) = false) :
    ofArguments (flag.name :: arguments) environment = .ok (.run (options.withFlag flag)) := by
  obtain ⟨given, read, done⟩ := ofArguments_eq_run_iff.mp asked
  obtain ⟨length, rfl, complete⟩ := exists_length_of_complete done
  rw [given_withLength] at absent
  obtain ⟨unset, carried⟩ := carries_readArguments flag arguments {} given read absent
  have first := setFlag_eq_ok_iff.mpr ⟨lasts, unset, rfl⟩
  have same := withFlag_maxLength given flag
  rw [withFlag_withLength] at exclusive ⊢
  refine ofArguments_eq_run_iff.mpr ⟨given.withFlag flag, ?_, complete _ same exclusive⟩
  rw [readArguments_flag, first]
  exact carried

end Invocation

end Calculator
