import Calculator.Magnitude.Shortest

/-!
# Layouts of numbers

Numbers are written in three layouts, which share the shortest digits and differ in the fields of
`Layout`: results and messages use `plain`, records of trees and log lines use `record`, and
envelopes use `json`.
-/

set_option autoImplicit false

namespace Calculator

/-- The choices that a written form of numbers leaves open. -/
structure Layout where
  /-- The least and the greatest power of ten of the first digit for which no exponent is written;
  none is ever written when this is absent. -/
  positional : Option (Int × Int)
  /-- Whether an integral number ends in a point and a zero. -/
  pointZero : Bool
  /-- Whether a plus sign precedes an exponent that is not negative. -/
  exponentPlus : Bool
  /-- Which of two equally near shortest decimals is written. -/
  tie : Tie
  deriving DecidableEq

namespace Layout

/-- Results and messages never have an exponent, and integral numbers no fraction. -/
def plain : Layout where
  positional := none
  pointZero := false
  exponentPlus := false
  tie := .up

/-- Records and log lines show a point or an exponent in every finite number: an exponent from
`1e16` up and below `0.0001`. -/
def record : Layout where
  positional := some (-4, 15)
  pointZero := true
  exponentPlus := false
  tie := .up

/-- Envelopes show a point or an exponent in every number: an exponent from `1e+16` up and below
`0.00001`. -/
def json : Layout where
  positional := some (-5, 15)
  pointZero := true
  exponentPlus := true
  tie := .even

def isPositional (layout : Layout) (d : Decimal) : Bool :=
  match layout.positional with
  | none => true
  | some (least, greatest) => least ≤ d.leadingExponent && d.leadingExponent ≤ greatest

/-- All digits of a decimal, with zeros where it has none between its digits and the point, and at
least one digit before the point. -/
def positionalText (layout : Layout) (d : Decimal) : List Char :=
  if 0 ≤ d.exponent then
    d.digits ++ List.replicate d.exponent.toNat '0' ++ (if layout.pointZero then ['.', '0'] else [])
  else
    let places := (-d.exponent).toNat
    let padded := List.replicate (places + 1 - d.digits.length) '0' ++ d.digits
    let whole := padded.length - places
    padded.take whole ++ '.' :: padded.drop whole

def exponentText (layout : Layout) (exponent : Int) : List Char :=
  if exponent < 0 then '-' :: Nat.toDigits 10 exponent.natAbs
  else if layout.exponentPlus then '+' :: Nat.toDigits 10 exponent.natAbs
  else Nat.toDigits 10 exponent.natAbs

/-- One digit before the point, the others after it, and the exponent. -/
def scientificText (layout : Layout) (d : Decimal) : List Char :=
  let fraction := d.digits.drop 1
  d.digits.take 1 ++ (if fraction.isEmpty then [] else '.' :: fraction) ++
    'e' :: layout.exponentText d.leadingExponent

def decimalText (layout : Layout) (d : Decimal) : List Char :=
  if layout.isPositional d then layout.positionalText d else layout.scientificText d

/-- The text of a number. All NaNs are written alike; of all other numbers the text shows the
sign bit. -/
def text (layout : Layout) (v : Float) : String :=
  if v.isNaN then "NaN"
  else
    let sign := if isNegative v then "-" else ""
    if v.isInf then sign ++ "inf"
    else sign ++ String.ofList (layout.decimalText ((Magnitude.ofFloat v).shortest layout.tie))

end Layout

end Calculator
