import Calculator.Proofs.Json.Number

/-!
# Reading of numbers in any layout

A text of a number tells which number it is, whatever its layout: the texts of finite doubles are read as
numbers, and three names stand for the others. So different doubles have different texts.
-/

set_option autoImplicit false

namespace Calculator

theorem isFinite_or_isInf_or_isNaN (v : Float) :
    v.isFinite = true ∨ v.isInf = true ∨ v.isNaN = true := by
  change v.toModel.unpack.isFinite = true ∨ v.toModel.unpack.isInf = true ∨
    v.toModel.unpack.isNaN = true
  cases v.toModel.unpack with
  | finite => exact .inl rfl
  | zero => exact .inl rfl
  | infinity => exact .inr (.inl rfl)
  | notANumber => exact .inr (.inr rfl)

theorem eq_inf_or_eq_neg_inf {v : Float} (infinite : v.isInf = true) :
    v = Float.inf ∨ v = -Float.inf := by
  have same {w : Float} (unpacked : v.toModel.unpack = w.toModel.unpack) : v = w := by
    rw [← Float.toBits_inj, ← UInt64.toBitVec_inj]
    exact (Float.Model.UnpackedFloat.unpack_inj_of_valid v.toModel.valid w.toModel.valid).mp unpacked
  change v.toModel.unpack.isInf = true at infinite
  cases unpacked : v.toModel.unpack with
  | infinity sign =>
      cases sign with
      | positive => exact .inl (same (unpacked.trans rfl))
      | negative => exact .inr (same (unpacked.trans rfl))
  | _ =>
      rw [unpacked] at infinite
      cases infinite

namespace Layout

/-- The double that a text names, if it is the text of one in some layout. -/
def read? (text : String) : Option Float :=
  match Json.readNumber text.toList with
  | some (value, _) => some value
  | none =>
      if text = "inf" then some Float.inf
      else if text = "-inf" then some (-Float.inf)
      else if text = "NaN" then some Float.nan
      else none

theorem read?_text (layout : Layout) (v : Float) : read? (layout.text v) = some v := by
  rcases isFinite_or_isInf_or_isNaN v with finite | infinite | nan
  · have read : Json.readNumber ((layout.text v).toList ++ []) = some (v, []) :=
      Json.readNumber_text layout finite nofun nofun
    rw [List.append_nil] at read
    simp [read?, read]
  · rcases eq_inf_or_eq_neg_inf infinite with rfl | rfl
    · have text : layout.text Float.inf = "inf" := rfl
      rw [text]
      decide +kernel
    · have text : layout.text (-Float.inf) = "-inf" := rfl
      rw [text]
      decide +kernel
  · have text : layout.text v = "NaN" := if_pos nan
    rw [Float.isNaN_eq_decide_eq_nan, decide_eq_true_eq] at nan
    rw [text, nan]
    decide +kernel

/-- Every layout tells all doubles apart, also zeros of either sign. -/
theorem text_inj (layout : Layout) {v w : Float} : layout.text v = layout.text w ↔ v = w := by
  constructor
  · intro same
    have read := layout.read?_text v
    rw [same, layout.read?_text w] at read
    exact (Option.some.inj read).symm
  · rintro rfl
    rfl

end Layout

end Calculator
