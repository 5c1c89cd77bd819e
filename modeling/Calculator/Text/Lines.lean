/-!
# Lines of bytes

A line ends at a line feed, and one carriage return before it belongs to the end. What follows the
last line feed is a line too unless it is empty, and is kept as it is. Lines are decoded one by one,
so that one which is not UTF-8 leaves those before it untouched.
-/

set_option autoImplicit false

namespace Calculator

/-- The bytes of a line, given in reverse, without a carriage return at its end. -/
def withoutReturn : List UInt8 → List UInt8
  | 13 :: reversed => reversed.reverse
  | reversed => reversed.reverse

/-- The lines of `bytes`, the first of which goes on from the bytes in `reversed`. -/
def linesFrom (reversed : List UInt8) : List UInt8 → List (List UInt8)
  | [] => if reversed.isEmpty then [] else [reversed.reverse]
  | byte :: rest =>
      if byte = 10 then withoutReturn reversed :: linesFrom [] rest
      else linesFrom (byte :: reversed) rest

def byteLines (bytes : List UInt8) : List (List UInt8) :=
  linesFrom [] bytes

/-- The text that a line encodes, if it is UTF-8. -/
def decodeLine? (line : List UInt8) : Option String :=
  String.fromUTF8? ⟨line.toArray⟩

end Calculator
