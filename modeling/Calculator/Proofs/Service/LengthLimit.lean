import Calculator.Envelope
import Calculator.Proofs.Engine.SourceOrder
import Calculator.Proofs.Trees.Depth

/-!
# Limits on lengths

An expression that a service admits is evaluated as without a limit; one that is too long is rejected,
whatever it holds. The limit bounds all that is made of an expression, because every lexeme takes a
character and an error points at one or behind the last.
-/

set_option autoImplicit false

namespace Calculator

open Grammar Scanning

/-! ## What is made of a source -/

theorem size_le_of_parse {source : String} {e : Expr} (parsed : parse source = .ok e) :
    e.size ≤ source.length := by
  obtain ⟨lexemes, partition, inorder, _⟩ := exists_partition_of_parse parsed
  calc
    e.size = (unparenthesized lexemes).length := by rw [← e.length_inorder, inorder]
    _ ≤ lexemes.length := List.length_filter_le _ _
    _ ≤ source.toList.length := partition.length_le
    _ = source.length := String.length_toList

theorem position_le_of_evaluate {source : String} {error : EvalError}
    (failed : evaluate source = .error error) :
    ∀ position ∈ error.position?, position ≤ source.length := by
  intro position located
  rcases located_or_empty failed with ⟨before, after, split, _, points⟩ | ⟨rfl, _⟩
  · have found : before.length = position := Option.some.inj (points.position?.symm.trans located)
    rw [← found, ← String.length_toList, split, List.length_append]
    exact Nat.le_add_right _ _
  · cases located

/-! ## What a service admits -/

namespace Service

/-- Whether an expression has at most as many characters as a service allows, if it sets a limit. -/
def Admits (service : Service) (source : String) : Prop :=
  ∀ limit ∈ service.maxLength, source.length ≤ limit

variable {service : Service} {source : String}

theorem checkLength_of_admits (admits : service.Admits source) :
    service.checkLength source = .ok () := by
  unfold checkLength
  split
  · rfl
  · rename_i limit limited
    exact if_neg (Nat.not_lt.mpr (admits limit limited))

theorem checkLength_of_lt {limit : Nat} (limited : service.maxLength = some limit)
    (longer : limit < source.length) :
    service.checkLength source = .error (.tooLong source.length limit) := by
  simp only [checkLength, limited]
  exact if_pos longer

theorem admits_or_lt (service : Service) (source : String) :
    service.Admits source ∨ ∃ limit, service.maxLength = some limit ∧ limit < source.length := by
  by_cases admits : service.Admits source
  · exact .inl admits
  · simp only [Admits, not_forall] at admits
    obtain ⟨limit, limited, longer⟩ := admits
    exact .inr ⟨limit, limited, Nat.not_le.mp longer⟩

theorem evaluate_of_admits (admits : service.Admits source) :
    service.evaluate source = (Calculator.evaluate source).mapError .eval := by
  simp only [evaluate, checkLength_of_admits admits]
  cases Calculator.evaluate source <;> rfl

theorem evaluate_of_lt {limit : Nat} (limited : service.maxLength = some limit)
    (longer : limit < source.length) :
    service.evaluate source = .error (.tooLong source.length limit) := by
  simp only [evaluate, checkLength_of_lt limited longer]

/-- A limit bounds what is made of an expression of at most as many characters: its items, its tree, and
the position of its error. Such an expression is evaluated as under any other limit that admits it, and
as under none. Every longer one is rejected with its length. -/
theorem limit_bounds_engine (limit : Nat) (source : String) :
    (source.length ≤ limit →
      (Service.mk (some limit)).checkLength source = .ok () ∧
      (Scanner.ofString source).items.length ≤ limit + 1 ∧
      (∀ e, parse source = .ok e → e.size ≤ limit ∧ e.depth ≤ limit) ∧
      (∀ fault, (Service.mk (some limit)).evaluate source = .error fault →
        ∃ error, fault = .eval error ∧ ∀ position ∈ error.position?, position ≤ limit) ∧
      ∀ other : Service, other.Admits source →
        (Service.mk (some limit)).evaluate source = other.evaluate source ∧
        (Service.mk (some limit)).answer source = other.answer source) ∧
    (limit < source.length →
      (Service.mk (some limit)).checkLength source = .error (.tooLong source.length limit) ∧
      (Service.mk (some limit)).evaluate source = .error (.tooLong source.length limit) ∧
      (Service.mk (some limit)).answer source =
        .fail (ServiceError.tooLong source.length limit).message) := by
  constructor
  · intro short
    have admits : (Service.mk (some limit)).Admits source := by
      rintro _ ⟨⟩
      exact short
    refine ⟨checkLength_of_admits admits, ?_, ?_, ?_, ?_⟩
    · have items := items_length_le source
      omega
    · intro e parsed
      have size := size_le_of_parse parsed
      have height := e.height_le_size
      rw [Expr.depth_eq]
      omega
    · intro fault failed
      rw [evaluate_of_admits admits] at failed
      cases evaluated : Calculator.evaluate source with
      | ok value =>
          rw [evaluated] at failed
          cases failed
      | error error =>
          rw [evaluated] at failed
          cases failed
          refine ⟨error, rfl, ?_⟩
          intro position located
          exact (position_le_of_evaluate evaluated position located).trans short
    · intro other otherAdmits
      have same : (Service.mk (some limit)).evaluate source = other.evaluate source := by
        rw [evaluate_of_admits admits, evaluate_of_admits otherAdmits]
      exact ⟨same, by rw [answer, answer, same]⟩
  · intro longer
    have rejected : (Service.mk (some limit)).evaluate source =
        .error (.tooLong source.length limit) := evaluate_of_lt rfl longer
    exact ⟨checkLength_of_lt rfl longer, rejected, by rw [answer, rejected]; rfl⟩

/-- The last of three characters takes two bytes. A limit of three lets it through to be found at the
position two, as no limit does; a limit of two rejects the whole. -/
theorem limit_bounds_engine_accented :
    (Service.mk (some 3)).evaluate "((é" = .error (.eval (.unexpectedChar 2 'é')) ∧
    (Service.mk (some 2)).evaluate "((é" = .error (.tooLong 3 2) ∧
    (Scanner.ofString "((é").items.length ≤ 3 + 1 := by
  have unlimited : (Service.mk none).evaluate "((é" = .error (.eval (.unexpectedChar 2 'é')) := by
    decide +kernel
  obtain ⟨_, items, _, _, same⟩ := (limit_bounds_engine 3 "((é").1 (by decide)
  obtain ⟨_, rejected, _⟩ := (limit_bounds_engine 2 "((é").2 (by decide)
  exact ⟨(same ⟨none⟩ nofun).1.trans unlimited, rejected, items⟩

end Service

end Calculator
