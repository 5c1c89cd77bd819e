import Mathlib

/-!
# Zeros of either sign

Two doubles are the same number if they are equal or both are NaN. They may then differ in the sign of a
zero. Every operation keeps this relation, but a division only with one divisor: divided by zeros of
either sign, a number gives infinities of either sign.
-/

set_option autoImplicit false

namespace Calculator

open Float.Model UnpackedFloat

/-- Equal as numbers, or both NaN. -/
def SameNumber (v w : Float) : Prop :=
  (v == w) = true ∨ v.isNaN = true ∧ w.isNaN = true

/-! ## Results before they are packed -/

/-- Whether two results differ in nothing but the sign of a zero. -/
inductive SameButZero : UnpackedFloat → UnpackedFloat → Prop where
  | refl {x} : SameButZero x x
  | zeros {sign sign'} : SameButZero (.zero sign) (.zero sign')

namespace SameButZero

variable {format : Format} {x x' y y' z : UnpackedFloat}

theorem trans (first : SameButZero x y) (second : SameButZero y z) : SameButZero x z := by
  cases first with
  | refl => exact second
  | zeros =>
      cases second with
      | refl => exact .zeros
      | zeros => exact .zeros

theorem neg (same : SameButZero x x') : SameButZero x.neg x'.neg := by
  cases same with
  | refl => exact .refl
  | zeros => exact .zeros

theorem add_left (same : SameButZero x x') :
    SameButZero (UnpackedFloat.add format x y) (UnpackedFloat.add format x' y) := by
  cases same with
  | refl => exact .refl
  | zeros =>
      cases y with
      | zero => simp only [UnpackedFloat.add]; split_ifs <;> exact .zeros
      | _ => exact .refl

theorem add_right (same : SameButZero y y') :
    SameButZero (UnpackedFloat.add format x y) (UnpackedFloat.add format x y') := by
  cases same with
  | refl => exact .refl
  | zeros =>
      cases x with
      | zero => simp only [UnpackedFloat.add]; split_ifs <;> exact .zeros
      | _ => exact .refl

theorem add (left : SameButZero x x') (right : SameButZero y y') :
    SameButZero (UnpackedFloat.add format x y) (UnpackedFloat.add format x' y') :=
  left.add_left.trans right.add_right

theorem sub_eq_add_neg (x y : UnpackedFloat) :
    UnpackedFloat.sub format x y = UnpackedFloat.add format x y.neg := by
  have opposite (sign : Sign) : - -sign = sign := by cases sign <;> rfl
  have sum (sign : Sign) (a b : Int) : a - sign.apply b = a + (-sign).apply b := by
    cases sign
    · exact Int.sub_neg a b
    · rfl
  cases x <;> cases y <;> simp [UnpackedFloat.sub, UnpackedFloat.add, UnpackedFloat.neg, sum]

theorem sub (left : SameButZero x x') (right : SameButZero y y') :
    SameButZero (UnpackedFloat.sub format x y) (UnpackedFloat.sub format x' y') := by
  rw [sub_eq_add_neg, sub_eq_add_neg]
  exact left.add right.neg

/-- A zero times an infinity is NaN, and times any other number but NaN it is a zero. -/
theorem mul_left (same : SameButZero x x') :
    SameButZero (UnpackedFloat.mul format x y) (UnpackedFloat.mul format x' y) := by
  cases same with
  | refl => exact .refl
  | zeros =>
      cases y with
      | notANumber => exact .refl
      | infinity => exact .refl
      | zero => exact .zeros
      | finite => exact .zeros

theorem mul_right (same : SameButZero y y') :
    SameButZero (UnpackedFloat.mul format x y) (UnpackedFloat.mul format x y') := by
  cases same with
  | refl => exact .refl
  | zeros =>
      cases x with
      | notANumber => exact .refl
      | infinity => exact .refl
      | zero => exact .zeros
      | finite => exact .zeros

theorem mul (left : SameButZero x x') (right : SameButZero y y') :
    SameButZero (UnpackedFloat.mul format x y) (UnpackedFloat.mul format x' y') :=
  left.mul_left.trans right.mul_right

theorem div_left (same : SameButZero x x') :
    SameButZero (UnpackedFloat.div format x y) (UnpackedFloat.div format x' y) := by
  cases same with
  | refl => exact .refl
  | zeros =>
      cases y with
      | notANumber => exact .refl
      | infinity => exact .zeros
      | zero => exact .refl
      | finite => exact .zeros

end SameButZero

/-! ## Doubles -/

namespace SameNumber

variable {v v' w w' : Float}

theorem iff_unpack : SameNumber v w ↔ SameButZero v.toModel.unpack w.toModel.unpack := by
  have equal : (v == w) = true ↔ _ := beq_iff_ne_notANumber_and_eq v.toModel.unpack w.toModel.unpack
  have isNaN (u : Float) : u.isNaN = true ↔ u.toModel.unpack = .notANumber := isNaN_iff
  rw [SameNumber, equal, isNaN v, isNaN w]
  generalize v.toModel.unpack = x
  generalize w.toModel.unpack = y
  constructor
  · rintro (⟨_, _, rfl | ⟨rfl, rfl⟩ | ⟨rfl, rfl⟩⟩ | ⟨rfl, rfl⟩)
    · exact .refl
    · exact .zeros
    · exact .zeros
    · exact .refl
  · intro same
    cases same with
    | refl => by_cases nan : x = .notANumber <;> simp [nan]
    | @zeros sign sign' => cases sign <;> cases sign' <;> simp

theorem ofUnpacked {x y : UnpackedFloat} (same : SameButZero x y) :
    SameNumber ⟨Float.Model.pack x⟩ ⟨Float.Model.pack y⟩ := by
  rw [iff_unpack]
  cases same with
  | refl => exact .refl
  | zeros =>
      change SameButZero (UnpackedFloat.unpack _ (packedZero _ _)) (UnpackedFloat.unpack _ (packedZero _ _))
      simp only [unpack_packedZero]
      exact .zeros

theorem zero_iff (same : SameNumber w w') : (w == 0) = true ↔ (w' == 0) = true := by
  rcases same with equal | ⟨nan, nan'⟩
  · rw [BEq.congr_left equal]
  · simp only [Float.isNaN_eq_decide_eq_nan, decide_eq_true_eq] at nan nan'
    rw [nan, nan']

theorem eq_of_nonzero (same : SameNumber w w') (nonzero : (w == 0) = false) : w = w' := by
  rcases same with equal | ⟨nan, nan'⟩
  · obtain ⟨_, _, same | ⟨rfl, _⟩ | ⟨rfl, _⟩⟩ := Float.beq_iff_ne_nan_and_eq.mp equal
    · exact same
    · exact absurd nonzero (by decide)
    · exact absurd nonzero (by decide)
  · simp only [Float.isNaN_eq_decide_eq_nan, decide_eq_true_eq] at nan nan'
    exact nan.trans nan'.symm

theorem neg (same : SameNumber v v') : SameNumber (-v) (-v') :=
  .ofUnpacked (iff_unpack.mp same).neg

variable (left : SameNumber v v') (right : SameNumber w w')

include left right

theorem add : SameNumber (v + w) (v' + w') :=
  .ofUnpacked ((iff_unpack.mp left).add (iff_unpack.mp right))

theorem sub : SameNumber (v - w) (v' - w') :=
  .ofUnpacked ((iff_unpack.mp left).sub (iff_unpack.mp right))

theorem mul : SameNumber (v * w) (v' * w') :=
  .ofUnpacked ((iff_unpack.mp left).mul (iff_unpack.mp right))

theorem div (nonzero : (w == 0) = false) : SameNumber (v / w) (v' / w') := by
  have divisor := right.eq_of_nonzero nonzero
  subst divisor
  exact .ofUnpacked (iff_unpack.mp left).div_left

end SameNumber

end Calculator
