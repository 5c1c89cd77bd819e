import Calculator.Proofs.Scanning.Cover

/-!
# The items of a scanner

A scanner gives the lexemes that cover its source and, last of all, the end marker or the first
foreign character.
-/

set_option autoImplicit false

namespace Calculator.Scanning

/-! ## One token -/

theorem ofChar?_eq_none_of_isDigit {c : Char} (digit : c.isDigit = true) :
    Token.ofChar? c = none := by
  unfold Token.ofChar?
  split <;> first | rfl | cases digit

theorem longest_whole {digits following : List Char} (isDigits : Digits digits)
    (ends : EndsBefore Char.isDigit following)
    (point : ∀ tail, following = '.' :: tail → EndsBefore Char.isDigit tail) :
    NumberText.longest (digits ++ following) = ⟨digits, [], following⟩ := by
  by_cases pointed : ∃ tail, following = '.' :: tail
  · obtain ⟨tail, rfl⟩ := pointed
    have stopped : ([] ++ tail).takeWhile Char.isDigit = [] :=
      (point tail rfl).takeWhile_append nofun
    rw [List.nil_append] at stopped
    simp [NumberText.longest, ends.takeWhile_append isDigits.2, ends.dropWhile_append isDigits.2,
      stopped]
  · simp [NumberText.longest, ends.takeWhile_append isDigits.2, ends.dropWhile_append isDigits.2,
      not_exists.mp pointed]

theorem longest_decimal {digits fraction following : List Char} (isDigits : Digits digits)
    (isFraction : Digits fraction) (ends : EndsBefore Char.isDigit following) :
    NumberText.longest (digits ++ '.' :: (fraction ++ following)) =
      ⟨digits, fraction, following⟩ := by
  have point : EndsBefore Char.isDigit ('.' :: (fraction ++ following)) := by
    intro c head
    cases head
    rfl
  simp only [NumberText.longest, point.takeWhile_append isDigits.2,
    point.dropWhile_append isDigits.2, ends.takeWhile_append isFraction.2,
    ends.dropWhile_append isFraction.2]
  split
  · exact absurd rfl isFraction.1
  · rfl

theorem read?_of_isDigit {c : Char} {rest : List Char} (digit : c.isDigit = true) :
    Token.read? c rest =
      some ⟨.number (NumberText.longest (c :: rest)).value,
        (NumberText.longest (c :: rest)).size, (NumberText.longest (c :: rest)).rest⟩ := by
  simp [Token.read?, ofChar?_eq_none_of_isDigit digit, digit]

theorem Munches.read? {text following : List Char} {token : Token}
    (munches : Munches text token following) {c : Char} {rest : List Char}
    (split : text ++ following = c :: rest) :
    Token.read? c rest = some ⟨token, text.length, following⟩ := by
  cases munches with
  | whole isDigits ends point =>
      rw [read?_of_isDigit (isDigits.isDigit_head split), ← split,
        longest_whole isDigits ends point]
      simp [NumberText.size, NumberText.value]
  | decimal isDigits isFraction ends =>
      rw [List.append_assoc, List.cons_append] at split
      rw [read?_of_isDigit (isDigits.isDigit_head split), ← split,
        longest_decimal isDigits isFraction ends]
      simp [NumberText.size, NumberText.value, isFraction.1]
  | _ =>
      cases split
      rfl

theorem Foreign.read? {c : Char} (foreign : Foreign c) (rest : List Char) :
    Token.read? c rest = none := by
  obtain ⟨_, digit, symbol⟩ := foreign
  have none : Token.ofChar? c = none := by
    unfold Token.ofChar?
    split <;> simp_all
  simp [Token.read?, none, digit]

/-! ## One step -/

section Step

variable {offset : Nat} {gap : List Char} (separators : ∀ c ∈ gap, isSeparator c = true)

include separators

theorem byteSize_gap : byteSize gap = gap.length :=
  byteSize_eq_length fun c member => ascii_of_isSeparator (separators c member)

theorem next_of_munches {text following : List Char} {token : Token}
    (munches : Munches text token following) :
    (Scanner.mk (gap ++ text ++ following) offset false).next =
      (some (.ok ⟨token, offset + byteSize gap⟩),
        ⟨following, offset + byteSize gap + byteSize text, false⟩) := by
  have ends := munches.endsGap following
  cases whole : text ++ following with
  | nil => exact absurd (List.append_eq_nil_iff.mp whole).1 munches.ne_nil
  | cons c rest =>
      rw [whole] at ends
      simp [Scanner.next, List.append_assoc, whole, ends.takeWhile_append separators,
        ends.dropWhile_append separators, munches.read? whole, byteSize_gap separators,
        byteSize_eq_length munches.ascii]

theorem next_of_end :
    (Scanner.mk gap offset false).next =
      (some (.ok ⟨.endMarker, offset + byteSize gap⟩), ⟨[], offset + byteSize gap, true⟩) := by
  have ends : EndsBefore isSeparator [] := nofun
  have taken := ends.takeWhile_append separators
  have dropped := ends.dropWhile_append separators
  rw [List.append_nil] at taken dropped
  simp [Scanner.next, taken, dropped, byteSize_gap separators]

theorem next_of_foreign {c : Char} (foreign : Foreign c) (after : List Char) :
    (Scanner.mk (gap ++ c :: after) offset false).next =
      (some (.error (.unexpectedChar (offset + byteSize gap) c)),
        ⟨c :: after, offset + byteSize gap, true⟩) := by
  have ends : EndsBefore isSeparator (c :: after) := by
    intro first head
    cases head
    exact foreign.1
  simp [Scanner.next, ends.takeWhile_append separators, ends.dropWhile_append separators,
    foreign.read?, byteSize_gap separators]

end Step

/-! ## All items -/

theorem drain_eq (s : Scanner) (seen : List (Except EvalError Lexeme)) :
    s.drain seen = seen.reverse ++ s.items := by
  have general : ∀ seen, s.drain seen = seen.reverse ++ s.drain [] := by
    induction remaining : s.remaining using Nat.strongRecOn generalizing s with
    | ind bound ih =>
        intro seen
        rw [Scanner.drain, Scanner.drain]
        rcases step : s.next with ⟨_ | item, later⟩
        · simp
        · have smaller := remaining ▸ Scanner.next_remaining_lt step
          have shown := ih _ smaller later rfl
          simp only
          rw [shown (item :: seen), shown [item]]
          simp
  exact general seen

theorem items_eq (s : Scanner) :
    s.items = match s.next with
      | (none, _) => []
      | (some item, later) => item :: later.items := by
  rw [Scanner.items, Scanner.drain]
  rcases step : s.next with ⟨_ | item, later⟩
  · rfl
  · simp only
    rw [drain_eq later [item]]
    rfl

theorem next_of_finished {s : Scanner} (finished : s.finished = true) : s.next = (none, s) := by
  simp [Scanner.next, finished]

theorem items_of_finished {s : Scanner} (finished : s.finished = true) : s.items = [] := by
  rw [items_eq, next_of_finished finished]

theorem finished_of_next {s later : Scanner} (step : s.next = (none, later)) :
    s.finished = true := by
  unfold Scanner.next at step
  split at step
  · assumption
  · simp only at step
    split at step
    · cases step
    · split at step <;> cases step

theorem poll_of_finished {s : Scanner} (finished : s.finished = true) (count : Nat) :
    s.poll count = List.replicate count none := by
  induction count with
  | zero => rfl
  | succ count ih => rw [Scanner.poll, next_of_finished finished, ih, List.replicate_succ]

/-- Requests give the items in turn, and nothing after the last of them. -/
theorem poll_eq (s : Scanner) (count : Nat) :
    s.poll count = (s.items.map some ++ List.replicate count none).take count := by
  induction count generalizing s with
  | zero => rfl
  | succ count ih =>
      rcases step : s.next with ⟨_ | item, later⟩
      · have finished := finished_of_next step
        rw [poll_of_finished finished, items_of_finished finished]
        simp
      · have longer : (later.items.map some ++ List.replicate (count + 1) none).take count =
            (later.items.map some ++ List.replicate count none).take count := by
          rw [List.replicate_succ', ← List.append_assoc, List.take_append_of_le_length (by simp)]
        rw [Scanner.poll, items_eq, step, ih, List.map_cons, List.cons_append, List.take_succ_cons,
          longer]

/-! ## Partition -/

theorem items_of_covers {offset : Nat} {text following : List Char} {lexemes : List Lexeme}
    (covers : Covers offset text lexemes following) :
    (Scanner.mk (text ++ following) offset false).items =
      lexemes.map .ok ++ (Scanner.mk following (offset + byteSize text) false).items := by
  induction covers with
  | nil => simp
  | cons separators munches _ ih =>
      rw [items_eq, List.append_assoc, next_of_munches separators munches]
      simp only
      rw [ih]
      simp [Nat.add_assoc]

theorem items_of_end {offset : Nat} {gap : List Char}
    (separators : ∀ c ∈ gap, isSeparator c = true) :
    (Scanner.mk gap offset false).items = [.ok ⟨.endMarker, offset + byteSize gap⟩] := by
  rw [items_eq, next_of_end separators]
  simp [items_of_finished]

theorem items_of_foreign {offset : Nat} {gap : List Char} {c : Char}
    (separators : ∀ c ∈ gap, isSeparator c = true) (foreign : Foreign c) (after : List Char) :
    (Scanner.mk (gap ++ c :: after) offset false).items =
      [.error (.unexpectedChar (offset + byteSize gap) c)] := by
  rw [items_eq, next_of_foreign separators foreign]
  simp [items_of_finished]

theorem Covers.items {source : String} {text gap : List Char} {lexemes : List Lexeme}
    (covers : Covers 0 text lexemes gap) (separators : ∀ c ∈ gap, isSeparator c = true)
    (split : source.toList = text ++ gap) :
    (Scanner.ofString source).items = lexemes.map .ok ++ [.ok ⟨.endMarker, source.utf8ByteSize⟩] := by
  rw [← byteSize_toList, Scanner.ofString, split, items_of_covers covers, items_of_end separators]
  simp

/-- The items of a source are the lexemes that cover it, and then the end marker or an error at the first
character that belongs to no token. -/
theorem exists_items (source : String) :
    ∃ text lexemes gap ending last, source.toList = text ++ (gap ++ ending) ∧
      Covers 0 text lexemes (gap ++ ending) ∧ (∀ c ∈ gap, isSeparator c = true) ∧
      (Scanner.ofString source).items = lexemes.map .ok ++ [last] ∧
      (ending = [] ∧ last = .ok ⟨.endMarker, source.utf8ByteSize⟩ ∨
        ∃ c after, ending = c :: after ∧ Foreign c ∧
          last = .error (.unexpectedChar (byteSize (text ++ gap)) c)) := by
  obtain ⟨text, lexemes, gap, ending, split, covers, separators, final⟩ :=
    exists_covers 0 source.toList
  cases ending with
  | nil =>
      refine ⟨text, lexemes, gap, [], _, split, covers, separators, ?_, .inl ⟨rfl, rfl⟩⟩
      rw [List.append_nil] at split covers
      exact covers.items separators split
  | cons c after =>
      have foreign := final c rfl
      have place : 0 + byteSize text + byteSize gap = byteSize (text ++ gap) := by simp
      refine ⟨text, lexemes, gap, c :: after, _, split, covers, separators, ?_,
        .inr ⟨c, after, rfl, foreign, rfl⟩⟩
      rw [Scanner.ofString, split, items_of_covers covers, items_of_foreign separators foreign, place]

/-- `Partition source lexemes`: a source consists of the texts of the lexemes and of separators
before, between and after them. -/
structure Partition (source : List Char) (lexemes : List Lexeme) : Prop where
  covered : ∃ text gap, source = text ++ gap ∧ Covers 0 text lexemes gap ∧
    ∀ c ∈ gap, isSeparator c = true
  increasing : lexemes.Pairwise fun earlier later => earlier.offset < later.offset
  proper : ∀ lexeme ∈ lexemes, lexeme.token ≠ .endMarker ∧ lexeme.token ≠ .blank

theorem Covers.partition {text gap : List Char} {lexemes : List Lexeme}
    (covers : Covers 0 text lexemes gap) (separators : ∀ c ∈ gap, isSeparator c = true) :
    Partition (text ++ gap) lexemes :=
  ⟨⟨text, gap, rfl, covers, separators⟩, covers.increasing, covers.proper⟩

theorem Partition.length_le {source : List Char} {lexemes : List Lexeme}
    (partition : Partition source lexemes) : lexemes.length ≤ source.length := by
  obtain ⟨text, gap, rfl, covers, _⟩ := partition.covered
  have within := covers.length_le
  rw [List.length_append]
  omega

theorem Partition.items {source : String} {lexemes : List Lexeme}
    (partition : Partition source.toList lexemes) :
    (Scanner.ofString source).items =
      (lexemes ++ [Lexeme.mk .endMarker source.utf8ByteSize]).map .ok := by
  obtain ⟨text, gap, split, covers, separators⟩ := partition.covered
  rw [covers.items separators split, List.map_append, List.map_singleton]

/-- A source is partitioned as a whole, or else up to its first foreign character. -/
theorem items_cases (source : String) :
    (∃ lexemes, Partition source.toList lexemes ∧
      (Scanner.ofString source).items =
        (lexemes ++ [Lexeme.mk .endMarker source.utf8ByteSize]).map .ok) ∨
    ∃ before c after lexemes, source.toList = before ++ c :: after ∧ Foreign c ∧
      Partition before lexemes ∧
      (Scanner.ofString source).items =
        lexemes.map .ok ++ [.error (.unexpectedChar (byteSize before) c)] := by
  obtain ⟨text, lexemes, gap, ending, last, split, covers, separators, items, final⟩ :=
    exists_items source
  rcases final with ⟨rfl, rfl⟩ | ⟨c, after, rfl, foreign, rfl⟩
  · rw [List.append_nil] at split covers
    have partition := covers.partition separators
    rw [← split] at partition
    exact .inl ⟨lexemes, partition, partition.items⟩
  · have partition := covers.of_append.partition separators
    rw [← List.append_assoc] at split
    exact .inr ⟨text ++ gap, c, after, lexemes, split, foreign, partition, items⟩

/-- Requests give the lexemes that partition the source and then the end marker; or else those that
partition the source up to its first foreign character, and then that character as an error. Nothing
comes after that. -/
theorem poll_partition (source : String) :
    (∀ count, (Scanner.ofString source).poll count =
      ((Scanner.ofString source).items.map some ++ List.replicate count none).take count) ∧
    ((∃ lexemes, Partition source.toList lexemes ∧
      (Scanner.ofString source).items =
        (lexemes ++ [Lexeme.mk .endMarker source.utf8ByteSize]).map .ok) ∨
    ∃ before c after lexemes, source.toList = before ++ c :: after ∧ Foreign c ∧
      Partition before lexemes ∧
      (Scanner.ofString (String.ofList before)).items =
        (lexemes ++ [Lexeme.mk .endMarker (byteSize before)]).map .ok ∧
      (Scanner.ofString source).items =
        lexemes.map .ok ++ [.error (.unexpectedChar (byteSize before) c)]) := by
  refine ⟨poll_eq _, ?_⟩
  rcases items_cases source with
    whole | ⟨before, c, after, lexemes, split, foreign, partition, items⟩
  · exact .inl whole
  · have listed : Partition (String.ofList before).toList lexemes := by
      rwa [String.toList_ofList]
    exact .inr ⟨before, c, after, lexemes, split, foreign, partition, listed.items, items⟩

end Calculator.Scanning
