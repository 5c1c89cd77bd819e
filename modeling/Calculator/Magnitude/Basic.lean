/-!
# Magnitudes of doubles

A double is a sign and a magnitude. The magnitudes from zero to infinity are numbered by their bit
patterns without the sign bit, in increasing order, so a magnitude is a natural number up to the
pattern of infinity. Its value is an integral multiple of the least positive double, `2 ^ -1074`;
infinity stands where the next double would be if exponents went on, at `2 ^ 1024`.
-/

set_option autoImplicit false

namespace Calculator

def signBit : Nat := 0x8000000000000000

def infinityBits : Nat := 0x7FF0000000000000

/-- A double without the sign bit that is not a NaN. -/
structure Magnitude where
  bits : Nat
  bits_le : bits ≤ infinityBits
  deriving DecidableEq

namespace Magnitude

/-- The power of two, relative to the least positive double, by which a significand is scaled: the
exponent field less one, and zero where that field is zero. -/
def scale (m : Magnitude) : Nat :=
  (m.bits >>> 52) - 1

/-- The integer of up to 53 bits that the magnitude scales. -/
def significand (m : Magnitude) : Nat :=
  m.bits - (m.scale <<< 52)

/-- The value of a magnitude in units of the least positive double. -/
def units (m : Magnitude) : Nat :=
  m.significand <<< m.scale

/-- The magnitude of a number; every NaN is sent to infinity. -/
def ofFloat (v : Float) : Magnitude where
  bits := min (v.toBits.toNat % signBit) infinityBits
  bits_le := Nat.min_le_right _ _

/-- The double of this magnitude whose sign bit is clear. -/
def toFloat (m : Magnitude) : Float :=
  Float.ofBits (UInt64.ofNat m.bits)

end Magnitude

/-- Whether the sign bit of a number is set, as it is for negative zero. -/
def isNegative (v : Float) : Bool :=
  signBit ≤ v.toBits.toNat

end Calculator
