import Calculator.Proofs.Grammar.Sentence

/-!
# The first error

Parsing fails at the first lexeme with which no sentence goes on: what stands before that lexeme is
the beginning of a sentence, and the lexeme alone is at fault. The error tells what was due there,
which the lexeme before it and the parentheses still open determine.
-/

set_option autoImplicit false

namespace Calculator.Grammar

/-! ## What an expression awaits -/

/-- `Awaits levels read expected room`: an expression was read up to a place where `expected` is
due. After a whole expression the end is due. -/
inductive Awaits (levels : Nat) : List Lexeme → Expected → Nat → Prop where
  | within {read expected room} :
      Begun .sum levels read expected room → Awaits levels read expected room
  | whole {read e depth room} :
      Derives .sum read e depth → depth ≤ levels → Awaits levels read .endOfExpression room

theorem Derives.due {category : Category} {input : List Lexeme} {e : Expr} {depth : Nat}
    (derives : Derives category input e depth) : Due input .endOfExpression :=
  ⟨derives.completes, derives.balanced⟩

theorem Encloses.supplies {lexeme : Lexeme} (encloses : Encloses lexeme.token) :
    ∃ more, Supplies .operand (lexeme :: more) 1 := by
  obtain ⟨token, offset⟩ := lexeme
  cases encloses with
  | plus => exact ⟨[⟨.number 0, 0⟩], .operand (.signed .plus .number)⟩
  | minus => exact ⟨[⟨.number 0, 0⟩], .operand (.signed .minus .number)⟩
  | leftParen =>
      have whole : Derives .sum [⟨.number 0, 0⟩] (.literal 0 0) 0 :=
        .single .sums (.single .products .number)
      exact ⟨[⟨.number 0, 0⟩, ⟨.rightParen, 0⟩], .operand (.group whole)⟩

namespace Awaits

variable {levels room : Nat} {read : List Lexeme} {expected : Expected}

theorem due (awaits : Awaits levels read expected room) : Due read expected := by
  cases awaits with
  | within begun => exact begun.due
  | whole derives => exact derives.due

theorem viable (awaits : Awaits 512 read expected room) : Viable read := by
  cases awaits with
  | within begun =>
      obtain ⟨rest, e, depth, derives, shallow⟩ := begun.viable
      exact ⟨rest, e, depth, derives, shallow⟩
  | whole derives shallow => exact Sentence.viable ⟨_, _, derives, shallow⟩

theorem deepen (awaits : Awaits levels read expected room) (more : Nat) :
    Awaits (levels + more) read expected (room + more) := by
  cases awaits with
  | within begun => exact .within (begun.deepen more)
  | whole derives shallow => exact .whole derives (Nat.le_add_right_of_le shallow)

theorem not_derives (awaits : Awaits levels read expected room) {next : Lexeme} {error : EvalError}
    (refused : Refused room expected (some next) error) {rest : List Lexeme} {e : Expr}
    {depth : Nat} (shallow : depth ≤ levels) : ¬ Derives .sum (read ++ next :: rest) e depth := by
  intro derives
  have stops : Category.sum.Stops ([] : List Lexeme).head? := nofun
  have run := derives.run_of_stops shallow stops
  rw [List.append_nil] at run
  cases awaits with
  | within begun =>
      have stuck : (Category.sum.parser levels).run (read ++ next :: rest) =
          (.error error, next :: rest) := begun.run_of_refused refused
      rw [run] at stuck
      cases stuck
  | @whole part _ _ derived derivedShallow =>
      have ended : (Category.sum.parser levels).run (read ++ next :: rest) =
          (.ok part, next :: rest) := derived.run_of_stops derivedShallow (refused.stops (by simp))
      rw [run] at ended
      cases ended

theorem not_viable (awaits : Awaits 512 read expected room) {next : Lexeme} {error : EvalError}
    (refused : Refused room expected (some next) error) : ¬ Viable (read ++ [next]) := by
  intro viable
  obtain ⟨rest, e, depth, derives, shallow⟩ := viable
  rw [List.append_assoc] at derives
  exact awaits.not_derives refused shallow derives

theorem not_viableAtAnyDepth (awaits : Awaits levels read expected room) {next : Lexeme}
    (proper : next.token ≠ .endMarker) (refuses : ¬ Admits expected next.token) :
    ¬ ViableAtAnyDepth (read ++ [next]) := by
  intro viable
  obtain ⟨rest, e, depth, derives⟩ := viable
  rw [List.append_assoc] at derives
  have refused : Refused (room + depth) expected (some next) _ := .misplaced proper refuses
  exact (awaits.deepen depth).not_derives refused (Nat.le_add_left depth levels) derives

/-- Only the limit stands in the way of one more prefix operator or group. -/
theorem viableAtAnyDepth (awaits : Awaits levels read .operand room) {next : Lexeme}
    (encloses : Encloses next.token) : ViableAtAnyDepth (read ++ [next]) := by
  cases awaits with
  | within begun =>
      obtain ⟨more, supplies⟩ := encloses.supplies
      obtain ⟨rest, e, depth, derives, _⟩ := begun.complete supplies
      exact ⟨more ++ rest, e, depth, by simpa using derives⟩

theorem endFree (awaits : Awaits levels read expected room) : EndFree read := by
  intro lexeme member
  cases awaits with
  | within begun => exact (begun.proper lexeme member).1
  | whole derives => exact (derives.proper lexeme member).1

end Awaits

theorem refused_of_conclude {e : Expr} {next : Option Lexeme} {error : EvalError} {room : Nat}
    (stops : Category.sum.Stops next) (failed : conclude (.ok e) next = .error error) :
    Refused room .endOfExpression next error := by
  cases next with
  | none =>
      cases failed
      exact .exhausted
  | some next =>
      by_cases ended : next.token = .endMarker
      · simp [conclude, ended] at failed
      · have misplaced : error = .unexpectedToken next.offset .endOfExpression next.token := by
          simpa [conclude, ended, eq_comm] using failed
        rw [misplaced]
        exact .misplaced ended (stops.not_admits (by simp) (by simp))

theorem conclude_of_refused {e : Expr} {next : Option Lexeme} {error : EvalError} {room : Nat}
    (refused : Refused room .endOfExpression next error) :
    conclude (.ok e) next = .error error := by
  cases refused with
  | exhausted => rfl
  | atEnd other => exact absurd rfl other
  | misplaced => simp_all [conclude]

/-- Every failure on an input that does not begin with the end marker is a refusal. -/
theorem refused_of_parseLexemes {input : List Lexeme} {error : EvalError}
    (failed : parseLexemes input = .error error)
    (proper : ∀ first ∈ input.head?, first.token ≠ .endMarker) :
    ∃ read rest expected room, input = read ++ rest ∧ Awaits 512 read expected room ∧
      Refused room expected rest.head? error := by
  cases input with
  | nil =>
      cases failed
      exact ⟨[], [], .operand, 512, rfl, .within (.first .sums (.first .products .start)),
        .exhausted⟩
  | cons first input =>
      rcases run : (Category.sum.parser Parser.maxNesting).run (first :: input) with ⟨result, rest⟩
      rw [parseLexemes_cons (proper first rfl) run] at failed
      obtain ⟨read, split, outcome⟩ := run_iff.mp run
      cases outcome with
      | refused begun refused =>
          cases failed
          exact ⟨read, rest, _, _, split, .within begun, refused⟩
      | read derives shallow stops =>
          exact ⟨read, rest, .endOfExpression, 0, split, .whole derives shallow,
            refused_of_conclude stops failed⟩

theorem parseLexemes_of_refused {read rest : List Lexeme} {expected : Expected} {room : Nat}
    {error : EvalError} (awaits : Awaits 512 read expected room)
    (refused : Refused room expected rest.head? error)
    (proper : ∀ first ∈ (read ++ rest).head?, first.token ≠ .endMarker) :
    parseLexemes (read ++ rest) = .error error := by
  have concluded : ∃ result, (Category.sum.parser Parser.maxNesting).run (read ++ rest) =
      (result, rest) ∧ conclude result rest.head? = .error error := by
    cases awaits with
    | within begun => exact ⟨.error error, begun.run_of_refused refused, rfl⟩
    | whole derives shallow =>
        refine ⟨_, derives.run_of_stops shallow (refused.stops (by simp)), ?_⟩
        exact conclude_of_refused refused
  obtain ⟨result, run, failed⟩ := concluded
  cases whole : read ++ rest with
  | nil =>
      obtain ⟨rfl, rfl⟩ := List.append_eq_nil_iff.mp whole
      cases refused
      rfl
  | cons first input =>
      rw [whole] at run proper
      rw [parseLexemes_cons (proper first rfl) run, failed]

/-! ## The place of the error -/

/-- Whether the lexeme at `index` is the first with which no sentence before an end marker goes
on. -/
def FaultAt (input : List Lexeme) (index : Nat) : Prop :=
  ∃ lexeme, input[index]? = some lexeme ∧
    Viable (input.take index) ∧ EndFree (input.take index) ∧
    (lexeme.token = .endMarker ∧ ¬ Sentence (input.take index) ∨
      lexeme.token ≠ .endMarker ∧ ¬ Viable (input.take (index + 1)))

/-- The error that the lexeme at `index` causes. -/
inductive Diagnosis (input : List Lexeme) (index : Nat) : EvalError → Prop where
  | atEnd {offset} :
      input[index]? = some ⟨.endMarker, offset⟩ → Diagnosis input index (.unexpectedEnd offset)
  | tooDeep {token offset} :
      input[index]? = some ⟨token, offset⟩ → token ≠ .endMarker →
      ViableAtAnyDepth (input.take (index + 1)) →
      Diagnosis input index (.nestingTooDeep offset 512)
  | misplaced {token offset expected} :
      input[index]? = some ⟨token, offset⟩ → token ≠ .endMarker →
      ¬ ViableAtAnyDepth (input.take (index + 1)) →
      (∀ other, expected = other ↔ Due (input.take index) other) →
      Diagnosis input index (.unexpectedToken offset expected token)

theorem FaultAt.not_lt {input : List Lexeme} {index other : Nat} (fault : FaultAt input index)
    (otherFault : FaultAt input other) : ¬ index < other := by
  intro before
  obtain ⟨lexeme, found, _, _, cause⟩ := fault
  obtain ⟨_, _, viable, endFree, _⟩ := otherFault
  obtain ⟨more, split⟩ := List.take_prefix_take_left (l := input) before
  rcases cause with ⟨ended, _⟩ | ⟨_, notViable⟩
  · have member : lexeme ∈ input.take (index + 1) := by simp [List.take_add_one, found]
    exact endFree lexeme (split ▸ List.mem_append_left more member) ended
  · rw [← split] at viable
    exact notViable viable.of_append

theorem FaultAt.unique {input : List Lexeme} {index other : Nat} (fault : FaultAt input index)
    (otherFault : FaultAt input other) : other = index :=
  Nat.le_antisymm (Nat.le_of_not_lt (fault.not_lt otherFault))
    (Nat.le_of_not_lt (otherFault.not_lt fault))

section Refusal

variable {read rest : List Lexeme} {next : Lexeme} {expected : Expected} {room : Nat}
  {error : EvalError}

private theorem getElem?_length : (read ++ next :: rest)[read.length]? = some next := by
  simp

private theorem take_length_succ :
    (read ++ next :: rest).take (read.length + 1) = read ++ [next] := by
  simp [List.take_add_one]

theorem Awaits.faultAt (awaits : Awaits 512 read expected room)
    (refused : Refused room expected (some next) error) :
    FaultAt (read ++ next :: rest) read.length := by
  refine ⟨next, getElem?_length, ?_⟩
  rw [List.take_left, take_length_succ]
  refine ⟨awaits.viable, awaits.endFree, ?_⟩
  cases refused with
  | atEnd other =>
      refine .inl ⟨rfl, fun ⟨e, depth, derives, _⟩ => ?_⟩
      exact other (awaits.due.unique derives.due)
  | tooDeep full encloses =>
      exact .inr ⟨encloses.proper, awaits.not_viable (.tooDeep full encloses)⟩
  | misplaced proper refuses =>
      exact .inr ⟨proper, awaits.not_viable (.misplaced proper refuses)⟩

theorem Awaits.diagnosis (awaits : Awaits 512 read expected room)
    (refused : Refused room expected (some next) error) :
    Diagnosis (read ++ next :: rest) read.length error := by
  cases refused with
  | atEnd => exact .atEnd getElem?_length
  | tooDeep full encloses =>
      refine .tooDeep getElem?_length encloses.proper ?_
      rw [take_length_succ]
      exact awaits.viableAtAnyDepth encloses
  | misplaced proper refuses =>
      refine .misplaced getElem?_length proper ?_ ?_
      · rw [take_length_succ]
        exact awaits.not_viableAtAnyDepth proper refuses
      · intro other
        rw [List.take_left]
        exact ⟨fun same => same ▸ awaits.due, awaits.due.unique⟩

end Refusal

theorem parseLexemes_of_endMarker {input : List Lexeme} {error : EvalError}
    (failed : parseLexemes input = .error error)
    (ended : ∃ first ∈ input.head?, first.token = .endMarker) : error = .emptyExpression := by
  obtain ⟨first, head, marker⟩ := ended
  obtain ⟨rest, rfl⟩ := List.head?_eq_some_iff.mp head
  simp only [parseLexemes, marker, if_pos] at failed
  cases failed
  rfl

theorem exhausted_iff {input : List Lexeme} {error : EvalError}
    (failed : parseLexemes input = .error error)
    (proper : ∀ first ∈ input.head?, first.token ≠ .endMarker) :
    error = .internal .tokenStreamExhausted ↔ EndFree input ∧ Viable input := by
  obtain ⟨read, rest, expected, room, rfl, awaits, refused⟩ := refused_of_parseLexemes failed proper
  cases rest with
  | nil =>
      rw [List.append_nil]
      have nothing : error = .internal .tokenStreamExhausted := by
        cases refused
        rfl
      exact ⟨fun _ => ⟨awaits.endFree, awaits.viable⟩, fun _ => nothing⟩
  | cons next rest =>
      constructor
      · intro same
        rw [same] at refused
        cases refused
      · intro ⟨_, viable⟩
        have longer : read ++ next :: rest = read ++ [next] ++ rest := by simp
        rw [longer] at viable
        exact absurd viable.of_append (awaits.not_viable refused)

/-- Parsing fails at the one lexeme with which no sentence goes on, or for want of any lexeme where
there is no such one. -/
theorem parseLexemes_locates {input : List Lexeme} {error : EvalError}
    (failed : parseLexemes input = .error error) :
    ((∃ first ∈ input.head?, first.token = .endMarker) → error = .emptyExpression) ∧
    (error = .internal .tokenStreamExhausted ↔ EndFree input ∧ Viable input) ∧
    ((∀ first ∈ input.head?, first.token ≠ .endMarker) → ¬ (EndFree input ∧ Viable input) →
      ∃ index, FaultAt input index ∧ (∀ other, FaultAt input other → other = index) ∧
        Diagnosis input index error) := by
  refine ⟨parseLexemes_of_endMarker failed, ?_, ?_⟩
  · by_cases ended : ∃ first ∈ input.head?, first.token = .endMarker
    · rw [parseLexemes_of_endMarker failed ended]
      obtain ⟨first, head, marker⟩ := ended
      exact ⟨nofun, fun ⟨endFree, _⟩ => absurd marker (endFree first (List.mem_of_mem_head? head))⟩
    · exact exhausted_iff failed fun first head marker => ended ⟨first, head, marker⟩
  · intro proper unfinished
    obtain ⟨read, rest, expected, room, rfl, awaits, refused⟩ :=
      refused_of_parseLexemes failed proper
    cases rest with
    | nil =>
        rw [List.append_nil] at unfinished
        exact absurd ⟨awaits.endFree, awaits.viable⟩ unfinished
    | cons next rest =>
        have fault : FaultAt (read ++ next :: rest) read.length := awaits.faultAt refused
        exact ⟨read.length, fault, fun _ => fault.unique, awaits.diagnosis refused⟩

/-- `(1 2` fails at its second number, where the parenthesis is still open. -/
theorem parseLexemes_locates_unclosed :
    parseLexemes [⟨.leftParen, 0⟩, ⟨.number 1, 1⟩, ⟨.number 2, 3⟩] =
      .error (.unexpectedToken 3 .closingParen (.number 2)) ∧
    ∃ index, FaultAt [⟨.leftParen, 0⟩, ⟨.number 1, 1⟩, ⟨.number 2, 3⟩] index ∧
      Diagnosis [⟨.leftParen, 0⟩, ⟨.number 1, 1⟩, ⟨.number 2, 3⟩] index
        (.unexpectedToken 3 .closingParen (.number 2)) := by
  have one : Derives .sum [⟨.number 1, 1⟩] (.literal 1 1) 0 :=
    .single .sums (.single .products .number)
  have awaits : Awaits 512 [⟨.leftParen, 0⟩, ⟨.number 1, 1⟩] .closingParen 511 :=
    .within (.first .sums (.first .products (.unclosed one (by decide))))
  have refuses : ¬ Admits .closingParen (.number 2) := by
    intro admits
    cases admits with
    | joins _ joins => cases joins
  have failed : parseLexemes [⟨.leftParen, 0⟩, ⟨.number 1, 1⟩, ⟨.number 2, 3⟩] =
      .error (.unexpectedToken 3 .closingParen (.number 2)) :=
    parseLexemes_of_refused awaits
      (.misplaced (by simp) refuses) (by simp)
  obtain ⟨_, exhausted, located⟩ := parseLexemes_locates failed
  have unfinished := mt exhausted.mpr (by simp)
  obtain ⟨index, fault, _, diagnosis⟩ := located (by simp) unfinished
  exact ⟨failed, index, fault, diagnosis⟩

end Calculator.Grammar
