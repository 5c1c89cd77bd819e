import Calculator.EvalError

/-!
# Reading tokens

Source text is read one lexeme at a time: blanks are skipped, and the longest token at the head of
what remains is taken. A number is a run of digits, and goes on through a point only when a digit
follows it. After the last token comes the end marker; a character that starts no token is an error
and the last thing that is given.
-/

set_option autoImplicit false

namespace Calculator

/-- The characters that separate tokens: space, tab, line feed, carriage return and form feed. -/
def isSeparator (c : Char) : Bool :=
  c == ' ' || c == '\t' || c == '\n' || c == '\r' || c == '\x0c'

/-- A number at the head of a text: its digits before and after the point, and what follows. -/
structure NumberText where
  whole : List Char
  fraction : List Char
  rest : List Char

def NumberText.longest (text : List Char) : NumberText :=
  let whole := text.takeWhile Char.isDigit
  let rest := text.dropWhile Char.isDigit
  match rest with
  | '.' :: tail =>
      match tail.takeWhile Char.isDigit with
      | [] => ⟨whole, [], rest⟩
      | fraction => ⟨whole, fraction, tail.dropWhile Char.isDigit⟩
  | _ => ⟨whole, [], rest⟩

def NumberText.size (n : NumberText) : Nat :=
  n.whole.length + (if n.fraction.isEmpty then 0 else n.fraction.length + 1)

def NumberText.value (n : NumberText) : Float :=
  (Decimal.ofDigits n.whole n.fraction).nearest.toFloat

/-- A token that was read, the number of characters that it takes, and what follows. -/
structure Reading where
  token : Token
  size : Nat
  rest : List Char

def Token.ofChar? : Char → Option Token
  | '+' => some .plus
  | '-' => some .minus
  | '*' => some .star
  | '/' => some .slash
  | '(' => some .leftParen
  | ')' => some .rightParen
  | _ => none

/-- The longest token that starts with `c` and goes on in `rest`. -/
def Token.read? (c : Char) (rest : List Char) : Option Reading :=
  match Token.ofChar? c with
  | some token => some ⟨token, 1, rest⟩
  | none =>
      if c.isDigit then
        let number := NumberText.longest (c :: rest)
        some ⟨.number number.value, number.size, number.rest⟩
      else none

private theorem length_dropWhile_le (p : Char → Bool) (text : List Char) :
    (text.dropWhile p).length ≤ text.length :=
  (List.dropWhile_suffix p).length_le

theorem Token.read?_rest_length_le {c : Char} {rest : List Char} {reading : Reading}
    (read : Token.read? c rest = some reading) : reading.rest.length ≤ rest.length := by
  unfold Token.read? at read
  split at read
  · cases read
    exact Nat.le_refl _
  · split at read
    · rename_i digit
      cases read
      have first : (c :: rest).dropWhile Char.isDigit = rest.dropWhile Char.isDigit :=
        List.dropWhile_cons_of_pos digit
      have shorter := length_dropWhile_le Char.isDigit rest
      simp only [NumberText.longest, first]
      split
      · rename_i tail point
        rw [point] at shorter
        have tailShorter := length_dropWhile_le Char.isDigit tail
        simp only [List.length_cons] at shorter
        split
        · rw [point]
          simpa using shorter
        · simp only
          omega
      · exact shorter
    · cases read

/-- Where the reading of a source stands. -/
structure Scanner where
  /-- The characters not yet read. -/
  rest : List Char
  /-- The byte offset of the first of them. -/
  offset : Nat
  /-- Whether the end marker or an error has been given. -/
  finished : Bool

namespace Scanner

def ofString (source : String) : Scanner where
  rest := source.toList
  offset := 0
  finished := false

/-- The next lexeme or error, nothing after the last, and where reading stands then. -/
def next (s : Scanner) : Option (Except EvalError Lexeme) × Scanner :=
  if s.finished then (none, s)
  else
    let offset := s.offset + (s.rest.takeWhile isSeparator).length
    match s.rest.dropWhile isSeparator with
    | [] => (some (.ok ⟨.endMarker, offset⟩), ⟨[], offset, true⟩)
    | c :: rest =>
        match Token.read? c rest with
        | some reading =>
            (some (.ok ⟨reading.token, offset⟩), ⟨reading.rest, offset + reading.size, false⟩)
        | none => (some (.error (.unexpectedChar offset c)), ⟨c :: rest, offset, true⟩)

def remaining (s : Scanner) : Nat :=
  if s.finished then 0 else s.rest.length + 1

theorem next_remaining_lt {s later : Scanner} {item : Except EvalError Lexeme}
    (step : s.next = (some item, later)) : later.remaining < s.remaining := by
  unfold next at step
  split at step
  · cases step
  · rename_i unfinished
    have shorter := length_dropWhile_le isSeparator s.rest
    simp only at step
    split at step
    · cases step
      simp [remaining, unfinished]
    · rename_i c rest skipped
      rw [skipped] at shorter
      simp only [List.length_cons] at shorter
      split at step
      · rename_i reading read
        cases step
        have := Token.read?_rest_length_le read
        simp only [remaining, unfinished]
        simp only [Bool.false_eq_true, if_false]
        omega
      · cases step
        simp [remaining, unfinished]

/-- All items still to come, after those in `seen`, which are in reverse. -/
def drain (s : Scanner) (seen : List (Except EvalError Lexeme)) : List (Except EvalError Lexeme) :=
  match _step : s.next with
  | (none, _) => seen.reverse
  | (some item, later) => later.drain (item :: seen)
termination_by s.remaining
decreasing_by exact next_remaining_lt _step

def items (s : Scanner) : List (Except EvalError Lexeme) :=
  s.drain []

/-- What the next `count` requests give, nothing standing for a request after the last item. -/
def poll (s : Scanner) : Nat → List (Option (Except EvalError Lexeme))
  | 0 => []
  | count + 1 => s.next.1 :: s.next.2.poll count

end Scanner

/-- The values before the first error, or that error; those in `seen` come first, in reverse. -/
def collect {α ε : Type} : List (Except ε α) → List α → Except ε (List α)
  | [], seen => .ok seen.reverse
  | .ok value :: rest, seen => collect rest (value :: seen)
  | .error error :: _, _ => .error error

/-- All lexemes of a source, the end marker included, or the first character that starts none. -/
def tokenize (source : String) : Except EvalError (List Lexeme) :=
  collect (Scanner.ofString source).items []

end Calculator
