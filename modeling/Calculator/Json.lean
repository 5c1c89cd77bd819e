import Calculator.Layout

/-!
# JSON values

The written forms of texts, numbers and absent values in JSON. A text is quoted with the shortest
escapes and otherwise as it is; a number that is not finite has no form of its own and is written as
an absent value.
-/

set_option autoImplicit false

namespace Calculator

namespace Json

/-- One character inside a quoted text: quotes, backslashes and control characters are escaped. -/
def escape (c : Char) : List Char :=
  if c = '"' then ['\\', '"']
  else if c = '\\' then ['\\', '\\']
  else if c = '\x08' then ['\\', 'b']
  else if c = '\x0c' then ['\\', 'f']
  else if c = '\n' then ['\\', 'n']
  else if c = '\r' then ['\\', 'r']
  else if c = '\t' then ['\\', 't']
  else if c.toNat < 0x20 then
    ['\\', 'u', '0', '0', Nat.digitChar (c.toNat / 16), Nat.digitChar (c.toNat % 16)]
  else [c]

def quote (text : String) : String :=
  "\"" ++ String.ofList (text.toList.flatMap escape) ++ "\""

/-- A number, or `null` for one that is not finite. -/
def number (value : Float) : String :=
  if value.isFinite then Layout.json.text value else "null"

/-- A value that may be absent, which is written as `null`. -/
def optional {α : Type} (write : α → String) : Option α → String
  | none => "null"
  | some value => write value

end Json

end Calculator
