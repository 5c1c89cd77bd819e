import Calculator.Proofs.Engine.Position

/-!
# Trees in source order

The nodes of a parsed tree, listed in order, are the lexemes of the source but its parentheses. Each
stands at its position in the source, and nothing but separators and parentheses is outside them.
-/

set_option autoImplicit false

namespace Calculator

open Grammar Scanning

theorem UnaryOperator.eq_symbol {operator : UnaryOperator} {word following : List Char}
    (munches : Munches word operator.token following) : word = [operator.symbol] := by
  cases operator <;> cases munches <;> rfl

theorem BinaryOperator.eq_symbol {operator : BinaryOperator} {word following : List Char}
    (munches : Munches word operator.token following) : word = [operator.symbol] := by
  cases operator <;> cases munches <;> rfl

/-- What stands in a source at the position of a node: the symbol of an operator, or the longest text of
a number, which denotes the literal. -/
inductive StandsIn (source : List Char) : Expr → Prop where
  | literal {before word after value} :
      source = before ++ (word ++ after) → Munches word (.number value) after →
      StandsIn source (.literal value (byteSize before))
  | unary {before after operator operand} :
      source = before ++ operator.symbol :: after →
      StandsIn source (.unary operator operand (byteSize before))
  | binary {before after operator left right} :
      source = before ++ operator.symbol :: after →
      StandsIn source (.binary operator left right (byteSize before))

theorem standsIn_of_lexeme {source : List Char} {lexemes : List Lexeme}
    (partition : Partition source lexemes) {node : Expr} (member : node.lexeme ∈ lexemes) :
    StandsIn source node := by
  obtain ⟨before, word, after, split, munches, found⟩ := partition.located member
  cases node with
  | literal value position =>
      change position = byteSize before at found
      subst found
      exact .literal split munches
  | unary operator operand position =>
      change position = byteSize before at found
      subst found
      rw [UnaryOperator.eq_symbol munches] at split
      exact .unary split
  | binary operator left right position =>
      change position = byteSize before at found
      subst found
      rw [BinaryOperator.eq_symbol munches] at split
      exact .binary split

theorem mem_parens_of_munches {left right following : List Char} {c : Char} {token : Token}
    (munches : Munches (left ++ c :: right) token following)
    (paren : token = .leftParen ∨ token = .rightParen) : c ∈ ['(', ')'] := by
  have member : c ∈ left ++ c :: right := by simp
  generalize left ++ c :: right = word at munches member
  rcases paren with rfl | rfl <;> cases munches <;> simp_all

theorem separator_or_paren_or_inside {source before after : List Char} {c : Char}
    {lexemes : List Lexeme} (partition : Partition source lexemes)
    (split : source = before ++ c :: after) :
    c ∈ [' ', '\t', '\n', '\r', '\x0c'] ∨ c ∈ ['(', ')'] ∨
      ∃ lexeme ∈ unparenthesized lexemes, ∃ start left right tail,
        before = start ++ left ∧ after = right ++ tail ∧
        Munches (left ++ c :: right) lexeme.token tail ∧ lexeme.offset = byteSize start := by
  rcases partition.separator_or_inside split with separates | ⟨lexeme, member, inside⟩
  · exact .inl (isSeparator_iff.mp separates)
  · by_cases paren : lexeme.token = .leftParen ∨ lexeme.token = .rightParen
    · obtain ⟨start, left, right, tail, _, _, munches, _⟩ := inside
      exact .inr (.inl (mem_parens_of_munches munches paren))
    · have plain : lexeme ∈ unparenthesized lexemes := by
        rw [unparenthesized, List.mem_filter]
        exact ⟨member, by simpa [not_or] using paren⟩
      exact .inr (.inr ⟨lexeme, plain, inside⟩)

theorem exists_partition_of_parse {source : String} {e : Expr} (parsed : parse source = .ok e) :
    ∃ lexemes, Partition source.toList lexemes ∧ e.inorder = unparenthesized lexemes ∧
      tokenize source = .ok (lexemes ++ [⟨.endMarker, source.utf8ByteSize⟩]) := by
  cases tokenized : tokenize source with
  | error error => simp [parse, tokenized] at parsed
  | ok all =>
      obtain ⟨lexemes, partition, rfl⟩ := exists_partition_of_tokenize tokenized
      rw [parse_of_tokenize tokenized] at parsed
      obtain ⟨depth, derives, _⟩ := derives_of_endFree
        (fun lexeme member => (partition.proper lexeme member).1) rfl parsed
      exact ⟨lexemes, partition, derives.inorder_eq, rfl⟩

/-- The nodes of a parsed tree in order are the lexemes of its source but parentheses and the end marker,
at increasing offsets. Each node stands in the source at its position, and every character that is in
the text of none is a separator or a parenthesis. -/
theorem parse_keeps_lexemes {source : String} {e : Expr} (parsed : parse source = .ok e) :
    ∃ lexemes, tokenize source = .ok lexemes ∧
      e.inorder = lexemes.filter (·.token ∉ [.leftParen, .rightParen, .endMarker]) ∧
      (e.inorder.Pairwise fun earlier later => earlier.offset < later.offset) ∧
      (∀ c ∈ source.toList, c.val ≤ 127) ∧
      (∀ node ∈ e.postorder, StandsIn source.toList node) ∧
      ∀ before c after, source.toList = before ++ c :: after →
        c ∈ [' ', '\t', '\n', '\r', '\x0c'] ∨ c ∈ ['(', ')'] ∨
          ∃ lexeme ∈ e.inorder, ∃ start left right tail,
            before = start ++ left ∧ after = right ++ tail ∧
            Munches (left ++ c :: right) lexeme.token tail ∧ lexeme.offset = byteSize start := by
  obtain ⟨lexemes, partition, inorder, tokenized⟩ := exists_partition_of_parse parsed
  have sublist : e.inorder.Sublist lexemes := inorder ▸ List.filter_sublist
  refine ⟨_, tokenized, ?_, partition.increasing.sublist sublist, partition.ascii, ?_, ?_⟩
  · have marker : [Lexeme.mk .endMarker source.utf8ByteSize].filter
        (·.token ∉ [.leftParen, .rightParen, .endMarker]) = [] := by simp
    rw [inorder, List.filter_append, marker, List.append_nil]
    apply List.filter_congr
    intro lexeme member
    simp [(partition.proper lexeme member).1]
  · intro node member
    exact standsIn_of_lexeme partition (sublist.subset (Expr.lexeme_mem_inorder member))
  · rw [inorder]
    exact fun before c after split => separator_or_paren_or_inside partition split

/-- In ` -(8 - 2.5)` the parentheses leave no node, and a sign is not taken for the operator. -/
theorem parse_keeps_lexemes_signed :
    parse " -(8 - 2.5)" =
      .ok (.unary .neg (.binary .sub (.literal 8 3) (.literal 2.5 7) 5) 1) ∧
    (∃ lexemes, tokenize " -(8 - 2.5)" = .ok lexemes ∧
      lexemes.filter (·.token ∉ [.leftParen, .rightParen, .endMarker]) =
        [⟨.minus, 1⟩, ⟨.number 8, 3⟩, ⟨.minus, 5⟩, ⟨.number 2.5, 7⟩]) ∧
    StandsIn " -(8 - 2.5)".toList (.literal 2.5 7) := by
  have parsed : parse " -(8 - 2.5)" =
      .ok (.unary .neg (.binary .sub (.literal 8 3) (.literal 2.5 7) 5) 1) := by decide +kernel
  obtain ⟨lexemes, tokenized, inorder, _, _, stands, _⟩ := parse_keeps_lexemes parsed
  exact ⟨parsed, ⟨lexemes, tokenized, inorder.symm⟩, stands (.literal 2.5 7) (by simp [Expr.postorder])⟩

end Calculator
