import Calculator.Json

/-!
# A reader of JSON objects

Objects in JSON whose values are texts, numbers, `true`, `false` or `null`. The reader is strict: texts
hold no unescaped control characters, numbers have no superfluous zeros in front, and nothing but space
follows an object. A number is read as the nearest double.
-/

set_option autoImplicit false

namespace Calculator.Json

/-- A value that is neither an array nor an object. -/
inductive Scalar where
  | null
  | bool (value : Bool)
  | number (value : Float)
  | text (value : String)
  deriving DecidableEq

def isSpace (c : Char) : Bool :=
  c == ' ' || c == '\t' || c == '\n' || c == '\r'

def skipSpace (text : List Char) : List Char :=
  text.dropWhile isSpace

/-! ## Texts -/

def unescape? : Char → Option Char
  | '"' => some '"'
  | '\\' => some '\\'
  | '/' => some '/'
  | 'b' => some '\x08'
  | 'f' => some '\x0c'
  | 'n' => some '\n'
  | 'r' => some '\r'
  | 't' => some '\t'
  | _ => none

def hexValue? (c : Char) : Option Nat :=
  if c.isDigit then some (c.toNat - '0'.toNat)
  else if 'a' ≤ c ∧ c ≤ 'f' then some (c.toNat - 'a'.toNat + 10)
  else if 'A' ≤ c ∧ c ≤ 'F' then some (c.toNat - 'A'.toNat + 10)
  else none

/-- The code unit of four hexadecimal digits. -/
def codeUnit? (a b c d : Char) : Option Nat := do
  let a ← hexValue? a
  let b ← hexValue? b
  let c ← hexValue? c
  let d ← hexValue? d
  return ((a * 16 + b) * 16 + c) * 16 + d

/-- The character of two code units, each of which is half of it. -/
def pairChar? (high low : Nat) : Option Char :=
  if 0xD800 ≤ high ∧ high < 0xDC00 ∧ 0xDC00 ≤ low ∧ low < 0xE000 then
    some (Char.ofNat (0x10000 + (high - 0xD800) * 0x400 + (low - 0xDC00)))
  else none

/-- The characters of a text up to its closing quote, and what follows. -/
def readText : List Char → Option (List Char × List Char)
  | [] => none
  | '"' :: rest => some ([], rest)
  | '\\' :: 'u' :: a :: b :: c :: d :: rest => do
      let unit ← codeUnit? a b c d
      if unit < 0xD800 ∨ 0xE000 ≤ unit then
        let (chars, rest) ← readText rest
        return (Char.ofNat unit :: chars, rest)
      else
        match rest with
        | '\\' :: 'u' :: a :: b :: c :: d :: rest =>
            let low ← codeUnit? a b c d
            let char ← pairChar? unit low
            let (chars, rest) ← readText rest
            return (char :: chars, rest)
        | _ => none
  | '\\' :: escaped :: rest => do
      let char ← unescape? escaped
      let (chars, rest) ← readText rest
      return (char :: chars, rest)
  | char :: rest => do
      guard (0x20 ≤ char.toNat)
      let (chars, rest) ← readText rest
      return (char :: chars, rest)

/-! ## Numbers -/

def readDigits (text : List Char) : Option (List Char × List Char) :=
  match text.takeWhile Char.isDigit with
  | [] => none
  | digits => some (digits, text.dropWhile Char.isDigit)

def readWhole (text : List Char) : Option (List Char × List Char) := do
  let (digits, rest) ← readDigits text
  guard (digits.head? = some '0' → digits.length = 1)
  return (digits, rest)

def readFraction : List Char → Option (List Char × List Char)
  | '.' :: rest => readDigits rest
  | rest => some ([], rest)

def readSigned : List Char → Option (Int × List Char)
  | '-' :: rest => do
      let (digits, rest) ← readDigits rest
      return (-(Nat.ofDigitChars 10 digits 0 : Int), rest)
  | '+' :: rest => do
      let (digits, rest) ← readDigits rest
      return (Nat.ofDigitChars 10 digits 0, rest)
  | rest => do
      let (digits, rest) ← readDigits rest
      return (Nat.ofDigitChars 10 digits 0, rest)

def readExponent : List Char → Option (Int × List Char)
  | 'e' :: rest => readSigned rest
  | 'E' :: rest => readSigned rest
  | rest => some (0, rest)

/-- A number without its sign, exactly. -/
def readDecimal (text : List Char) : Option (Decimal × List Char) := do
  let (whole, rest) ← readWhole text
  let (fraction, rest) ← readFraction rest
  let (exponent, rest) ← readExponent rest
  let digits := Nat.ofDigitChars 10 (whole ++ fraction) 0
  return (⟨digits, exponent - fraction.length⟩, rest)

def readNumber : List Char → Option (Float × List Char)
  | '-' :: rest => do
      let (magnitude, rest) ← readDecimal rest
      return (-magnitude.nearest.toFloat, rest)
  | rest => do
      let (magnitude, rest) ← readDecimal rest
      return (magnitude.nearest.toFloat, rest)

/-! ## Objects -/

def readScalar : List Char → Option (Scalar × List Char)
  | 'n' :: 'u' :: 'l' :: 'l' :: rest => some (.null, rest)
  | 't' :: 'r' :: 'u' :: 'e' :: rest => some (.bool true, rest)
  | 'f' :: 'a' :: 'l' :: 's' :: 'e' :: rest => some (.bool false, rest)
  | '"' :: rest => do
      let (chars, rest) ← readText rest
      return (.text (String.ofList chars), rest)
  | rest => do
      let (value, rest) ← readNumber rest
      return (.number value, rest)

/-- A key, a colon and a value, with space around each of them. -/
def readMember (text : List Char) : Option ((String × Scalar) × List Char) :=
  match skipSpace text with
  | '"' :: rest => do
      let (key, rest) ← readText rest
      match skipSpace rest with
      | ':' :: rest =>
          let (value, rest) ← readScalar (skipSpace rest)
          return ((String.ofList key, value), skipSpace rest)
      | _ => none
  | _ => none

/-- At most `count` members, up to the closing brace, and what follows. -/
def readMembers : Nat → List Char → Option (List (String × Scalar) × List Char)
  | 0, _ => none
  | count + 1, text => do
      let (member, rest) ← readMember text
      match rest with
      | '\x7d' :: rest => some ([member], rest)
      | ',' :: rest =>
          let (members, rest) ← readMembers count rest
          return (member :: members, rest)
      | _ => none

/-- The keys and values of the one object that a text consists of, in their order. -/
def readObject (text : List Char) : Option (List (String × Scalar)) :=
  match skipSpace text with
  | '\x7b' :: rest => do
      let (members, rest) ←
        match skipSpace rest with
        | '\x7d' :: rest => some ([], rest)
        | _ => readMembers text.length rest
      guard (skipSpace rest = [])
      return members
  | _ => none

end Calculator.Json
