import Calculator.Proofs.Scanning.Partition

/-!
# Tokenization of a whole source

All lexemes of a source that is partitioned, or its first foreign character; and where in the source
the text of each lexeme stands.
-/

set_option autoImplicit false

namespace Calculator.Scanning

theorem collect_ok {α ε : Type} (values seen : List α) :
    collect (values.map (Except.ok (ε := ε))) seen = .ok (seen.reverse ++ values) := by
  induction values generalizing seen with
  | nil => simp [collect]
  | cons value values ih => simp [collect, ih]

theorem collect_error {α ε : Type} (values seen : List α) (error : ε) :
    collect (values.map .ok ++ [.error error]) seen = .error error := by
  induction values generalizing seen with
  | nil => rfl
  | cons value values ih => exact ih _

theorem Partition.tokenize {source : String} {lexemes : List Lexeme}
    (partition : Partition source.toList lexemes) :
    tokenize source = .ok (lexemes ++ [⟨.endMarker, source.utf8ByteSize⟩]) := by
  rw [Calculator.tokenize, partition.items, collect_ok]
  rfl

theorem tokenize_cases (source : String) :
    (∃ lexemes, Partition source.toList lexemes ∧
      tokenize source = .ok (lexemes ++ [⟨.endMarker, source.utf8ByteSize⟩])) ∨
    ∃ before c after lexemes, source.toList = before ++ c :: after ∧ Foreign c ∧
      Partition before lexemes ∧ tokenize source = .error (.unexpectedChar (byteSize before) c) := by
  rcases items_cases source with
    ⟨lexemes, partition, _⟩ | ⟨before, c, after, lexemes, split, foreign, partition, items⟩
  · exact .inl ⟨lexemes, partition, partition.tokenize⟩
  · refine .inr ⟨before, c, after, lexemes, split, foreign, partition, ?_⟩
    rw [Calculator.tokenize, items, collect_error]

/-- Every item but the last one takes a character at least. -/
theorem items_length_le (source : String) :
    (Scanner.ofString source).items.length ≤ source.length + 1 := by
  obtain ⟨text, lexemes, gap, ending, last, split, covers, _, items, _⟩ := exists_items source
  have within := covers.length_le
  rw [items, ← String.length_toList, split]
  simp only [List.length_append, List.length_map, List.length_singleton]
  omega

theorem exists_partition_of_tokenize {source : String} {lexemes : List Lexeme}
    (tokenized : tokenize source = .ok lexemes) :
    ∃ read, Partition source.toList read ∧
      lexemes = read ++ [⟨.endMarker, source.utf8ByteSize⟩] := by
  rcases tokenize_cases source with ⟨read, partition, same⟩ | ⟨_, _, _, _, _, _, _, same⟩
  · exact ⟨read, partition, Except.ok.inj (tokenized.symm.trans same)⟩
  · cases same.symm.trans tokenized

/-! ## Covers of composed texts -/

theorem Munches.covers {text following : List Char} {token : Token}
    (munches : Munches text token following) (offset : Nat) :
    Covers offset text [⟨token, offset⟩] following := by
  have none : ∀ c ∈ ([] : List Char), isSeparator c = true := nofun
  simpa using Covers.cons none (List.nil_append following ▸ munches) .nil

theorem Covers.append {offset : Nat} {text more following : List Char}
    {lexemes moreLexemes : List Lexeme} (covers : Covers offset text lexemes (more ++ following))
    (moreCovers : Covers (offset + byteSize text) more moreLexemes following) :
    Covers offset (text ++ more) (lexemes ++ moreLexemes) following := by
  generalize same : more ++ following = rest at covers
  induction covers with
  | nil => exact moreCovers
  | cons separators munches _ ih =>
      subst same
      rw [List.append_assoc _ _ more]
      rw [← List.append_assoc] at munches
      refine .cons separators munches (ih ?_ rfl)
      simpa [Nat.add_assoc] using moreCovers

theorem Covers.widen {offset : Nat} {gap text following : List Char} {first : Lexeme}
    {lexemes : List Lexeme} (separators : ∀ c ∈ gap, isSeparator c = true)
    (covers : Covers (offset + byteSize gap) text (first :: lexemes) following) :
    Covers offset (gap ++ text) (first :: lexemes) following := by
  generalize begin : offset + byteSize gap = start at covers
  cases covers with
  | @cons _ inner word token rest _ _ innerSeparators munches covers =>
      subst begin
      have all : ∀ c ∈ gap ++ inner, isSeparator c = true := by
        intro c member
        rcases List.mem_append.mp member with member | member
        · exact separators c member
        · exact innerSeparators c member
      have later : Covers (offset + byteSize (gap ++ inner) + byteSize word) rest lexemes
          following := by
        rwa [byteSize_append, ← Nat.add_assoc]
      simpa [Nat.add_assoc] using Covers.cons all munches later

/-! ## Places of lexemes -/

theorem Covers.ascii {offset : Nat} {text following : List Char} {lexemes : List Lexeme}
    (covers : Covers offset text lexemes following) : ∀ c ∈ text, c.val ≤ 127 := by
  induction covers with
  | nil => exact nofun
  | cons separators munches _ ih =>
      intro c member
      rcases List.mem_append.mp member with member | member
      · rcases List.mem_append.mp member with member | member
        · exact ascii_of_isSeparator (separators c member)
        · exact munches.ascii c member
      · exact ih c member

theorem Partition.ascii {source : List Char} {lexemes : List Lexeme}
    (partition : Partition source lexemes) : ∀ c ∈ source, c.val ≤ 127 := by
  obtain ⟨text, gap, rfl, covers, separators⟩ := partition.covered
  intro c member
  rcases List.mem_append.mp member with member | member
  · exact covers.ascii c member
  · exact ascii_of_isSeparator (separators c member)

/-- Every lexeme stands at its offset, with the longest text of a token there. -/
theorem Covers.located {offset : Nat} {text following : List Char} {lexemes : List Lexeme}
    (covers : Covers offset text lexemes following) :
    ∀ lexeme ∈ lexemes, ∃ before word after, text ++ following = before ++ (word ++ after) ∧
      Munches word lexeme.token after ∧ lexeme.offset = offset + byteSize before := by
  induction covers with
  | nil => exact nofun
  | @cons offset gap text token rest lexemes following _ munches _ ih =>
      intro lexeme member
      rcases List.mem_cons.mp member with rfl | member
      · exact ⟨gap, text, rest ++ following, by simp, munches, rfl⟩
      · obtain ⟨before, word, after, split, wordMunches, found⟩ := ih lexeme member
        refine ⟨gap ++ text ++ before, word, after, ?_, wordMunches, ?_⟩
        · rw [List.append_assoc, split]
          simp
        · rw [found]
          simp [Nat.add_assoc]

theorem cut_append {left right before after : List Char} {c : Char}
    (split : left ++ right = before ++ c :: after) :
    (∃ more, left = before ++ c :: more ∧ after = more ++ right) ∨
      ∃ more, before = left ++ more ∧ right = more ++ c :: after := by
  rcases List.append_eq_append_iff.mp split with ⟨more, rfl, rest⟩ | ⟨more, rfl, rest⟩
  · exact .inr ⟨more, rfl, rest⟩
  · cases more with
    | nil => exact .inr ⟨[], by simp, rest.symm⟩
    | cons first more =>
        obtain ⟨rfl, rfl⟩ := List.cons.inj rest
        exact .inl ⟨more, rfl, rfl⟩

theorem Covers.separator_or_inside {offset : Nat} {text following : List Char}
    {lexemes : List Lexeme} (covers : Covers offset text lexemes following)
    {before after : List Char} {c : Char} (split : text = before ++ c :: after) :
    isSeparator c = true ∨ ∃ lexeme ∈ lexemes, ∃ start left right tail,
      before = start ++ left ∧ after = right ++ tail ∧
      Munches (left ++ c :: right) lexeme.token (tail ++ following) ∧
      lexeme.offset = offset + byteSize start := by
  induction covers generalizing before with
  | nil => simp at split
  | @cons offset gap word token rest lexemes following separators munches _ ih =>
      rw [List.append_assoc] at split
      rcases cut_append split with ⟨more, rfl, _⟩ | ⟨more, rfl, wordSplit⟩
      · exact .inl (separators c (by simp))
      · rcases cut_append wordSplit with ⟨right, rfl, rfl⟩ | ⟨inner, rfl, restSplit⟩
        · exact .inr ⟨_, List.mem_cons_self, gap, more, right, rest, rfl, rfl, munches, rfl⟩
        · rcases ih restSplit with
            separates | ⟨lexeme, member, start, left, right, tail, rfl, rfl, inside⟩
          · exact .inl separates
          · obtain ⟨wordMunches, found⟩ := inside
            refine .inr ⟨lexeme, List.mem_cons_of_mem _ member, gap ++ word ++ start, left, right,
              tail, by simp, rfl, wordMunches, ?_⟩
            rw [found]
            simp [Nat.add_assoc]

theorem Partition.located {source : List Char} {lexemes : List Lexeme}
    (partition : Partition source lexemes) {lexeme : Lexeme} (member : lexeme ∈ lexemes) :
    ∃ before word after, source = before ++ (word ++ after) ∧
      Munches word lexeme.token after ∧ lexeme.offset = byteSize before := by
  obtain ⟨text, gap, rfl, covers, _⟩ := partition.covered
  simpa using covers.located lexeme member

theorem Partition.separator_or_inside {source before after : List Char} {c : Char}
    {lexemes : List Lexeme} (partition : Partition source lexemes)
    (split : source = before ++ c :: after) :
    isSeparator c = true ∨ ∃ lexeme ∈ lexemes, ∃ start left right tail,
      before = start ++ left ∧ after = right ++ tail ∧
      Munches (left ++ c :: right) lexeme.token tail ∧ lexeme.offset = byteSize start := by
  obtain ⟨text, gap, rfl, covers, separators⟩ := partition.covered
  rcases cut_append split with ⟨more, textSplit, rfl⟩ | ⟨more, _, rfl⟩
  · rcases covers.separator_or_inside textSplit with
      separates | ⟨lexeme, member, start, left, right, tail, same, rfl, munches, found⟩
    · exact .inl separates
    · exact .inr ⟨lexeme, member, start, left, right, tail ++ gap, same, by simp, munches,
        by simpa using found⟩
  · exact .inl (separators c (by simp))

end Calculator.Scanning
