import Calculator.Proofs.Grammar.Reading

/-!
# Nesting in phrases

How many prefix operators and groups enclose a place in a phrase, counted without any limit. Where a
phrase, or a beginning of one, is too deep for some number of levels, these levels are used up in
front of the first prefix operator or parenthesis that does not fit.
-/

set_option autoImplicit false

namespace Calculator.Grammar

theorem Signs.encloses {sign : Token} {operator : UnaryOperator} (signs : Signs sign operator) :
    Encloses sign := by
  cases signs with
  | plus => exact .plus
  | minus => exact .minus

/-- `EnclosedBy category before count`: an operand is due after `before`, which begins a phrase of the
category, and `count` of the prefix operators and groups that were opened enclose that operand. -/
inductive EnclosedBy : Category → List Lexeme → Nat → Prop where
  | start : EnclosedBy .factor [] 0
  | signed {sign operator offset before count} :
      Signs sign operator → EnclosedBy .factor before count →
      EnclosedBy .factor (⟨sign, offset⟩ :: before) (count + 1)
  | opened {offset before count} :
      EnclosedBy .sum before count →
      EnclosedBy .factor (⟨.leftParen, offset⟩ :: before) (count + 1)
  | first {outer inner before count} :
      Chains outer inner → EnclosedBy inner before count → EnclosedBy outer before count
  | next {outer inner token operator offset left l depth before count} :
      Chains outer inner → Joins outer token operator → Derives outer left l depth →
      EnclosedBy inner before count → EnclosedBy outer (left ++ ⟨token, offset⟩ :: before) count

/-- Whether fewer than `levels` prefix operators and groups enclose each of them in `input`. -/
def Fits (category : Category) (levels : Nat) (input : List Lexeme) : Prop :=
  ∀ before opening after count, input = before ++ opening :: after → Encloses opening.token →
    EnclosedBy category before count → count < levels

/-- `FirstBeyond category levels input before opening after`: the first prefix operator or parenthesis
in `input` that `levels` or more of them enclose. -/
structure FirstBeyond (category : Category) (levels : Nat) (input before : List Lexeme)
    (opening : Lexeme) (after : List Lexeme) : Prop where
  split : input = before ++ opening :: after
  encloses : Encloses opening.token
  beyond : ∃ count, EnclosedBy category before count ∧ levels ≤ count
  first : Fits category levels before

variable {category : Category} {levels : Nat}

/-- `Full category levels input before opening after`: in front of `opening` the levels are used
up. -/
structure Full (category : Category) (levels : Nat) (input before : List Lexeme) (opening : Lexeme)
    (after : List Lexeme) : Prop where
  split : input = before ++ opening :: after
  encloses : Encloses opening.token
  begun : Begun category levels before .operand 0

namespace Full

variable {input before after : List Lexeme} {opening : Lexeme}

theorem run (full : Full category levels input before opening after) (rest : List Lexeme) :
    (category.parser levels).run (input ++ rest) =
      (.error (.nestingTooDeep opening.offset Parser.maxNesting), opening :: (after ++ rest)) := by
  have refused : Refused 0 .operand (opening :: (after ++ rest)).head?
      (.nestingTooDeep opening.offset Parser.maxNesting) := .tooDeep rfl full.encloses
  have stuck := full.begun.run_of_refused refused
  rw [← stuck, full.split, List.append_assoc, List.cons_append]

theorem not_derives (full : Full category levels input before opening after) {rest : List Lexeme}
    {e : Expr} {depth : Nat} (shallow : depth ≤ levels) :
    ¬ Derives category (input ++ rest) e depth := by
  intro derives
  have stops : category.Stops ([] : List Lexeme).head? := nofun
  have read := derives.run_of_stops shallow stops
  rw [List.append_nil, full.run rest] at read
  cases read

theorem signed (full : Full .factor levels input before opening after) {sign : Token}
    {operator : UnaryOperator} (signs : Signs sign operator) (offset : Nat) :
    Full .factor (levels + 1) (⟨sign, offset⟩ :: input) (⟨sign, offset⟩ :: before) opening after :=
  ⟨by simp [full.split], full.encloses, .signed signs full.begun⟩

theorem opened (full : Full .sum levels input before opening after) (offset : Nat)
    (more : List Lexeme) :
    Full .factor (levels + 1) (⟨.leftParen, offset⟩ :: (input ++ more))
      (⟨.leftParen, offset⟩ :: before) opening (after ++ more) :=
  ⟨by simp [full.split], full.encloses, .opened full.begun⟩

theorem first {outer inner : Category} (full : Full inner levels input before opening after)
    (chains : Chains outer inner) : Full outer levels input before opening after :=
  ⟨full.split, full.encloses, .first chains full.begun⟩

theorem append (full : Full category levels input before opening after) (more : List Lexeme) :
    Full category levels (input ++ more) before opening (after ++ more) :=
  ⟨by simp [full.split], full.encloses, full.begun⟩

theorem next {outer inner : Category} (full : Full inner levels input before opening after)
    (chains : Chains outer inner) {token : Token} {operator : BinaryOperator}
    (joins : Joins outer token operator) {left : List Lexeme} {l : Expr} {depth : Nat}
    (derives : Derives outer left l depth) (shallow : depth ≤ levels) (offset : Nat) :
    Full outer levels (left ++ ⟨token, offset⟩ :: input) (left ++ ⟨token, offset⟩ :: before) opening
      after :=
  ⟨by simp [full.split], full.encloses, .next chains joins derives shallow full.begun⟩

theorem start (encloses : Encloses opening.token) (rest : List Lexeme) :
    Full .factor 0 (opening :: rest) [] opening rest :=
  ⟨rfl, encloses, .start⟩

end Full

/-- A phrase that is too deep uses up the levels. -/
theorem Derives.exists_full {input : List Lexeme} {e : Expr} {depth : Nat}
    (derives : Derives category input e depth) :
    ∀ levels, levels < depth → ∃ before opening after, Full category levels input before opening after := by
  induction derives with
  | number => exact fun levels deep => absurd deep (Nat.not_lt_zero levels)
  | @signed sign _ offset input _ _ signs _ ih =>
      intro levels deep
      cases levels with
      | zero => exact ⟨_, _, _, .start signs.encloses input⟩
      | succ levels =>
          obtain ⟨before, opening, after, full⟩ := ih levels (Nat.lt_of_succ_lt_succ deep)
          exact ⟨_, _, _, full.signed signs offset⟩
  | @group offset closing input _ _ _ ih =>
      intro levels deep
      cases levels with
      | zero => exact ⟨_, _, _, .start .leftParen _⟩
      | succ levels =>
          obtain ⟨before, opening, after, full⟩ := ih levels (Nat.lt_of_succ_lt_succ deep)
          exact ⟨_, _, _, full.opened offset _⟩
  | single chains _ ih =>
      intro levels deep
      obtain ⟨before, opening, after, full⟩ := ih levels deep
      exact ⟨_, _, _, full.first chains⟩
  | @joined _ _ token _ offset left right _ _ leftDepth _ chains joins leftDerives _ leftIH rightIH =>
      intro levels deep
      -- The left part uses up the levels by itself, or else the right one does after it.
      by_cases leftDeep : levels < leftDepth
      · obtain ⟨before, opening, after, full⟩ := leftIH levels leftDeep
        exact ⟨_, _, _, full.append _⟩
      · have shallow := Nat.le_of_not_lt leftDeep
        obtain ⟨before, opening, after, full⟩ := rightIH levels (by omega)
        exact ⟨_, _, _, full.next chains joins leftDerives shallow offset⟩

/-- A beginning of a phrase leaves as much less room as there are fewer levels, or uses them up. -/
theorem Begun.lower {more room : Nat} {input : List Lexeme} {expected : Expected}
    (begun : Begun category more input expected room) :
    ∀ levels, (∃ left, Begun category levels input expected left ∧ left + more = room + levels) ∨
      ∃ before opening after, Full category levels input before opening after := by
  induction begun with
  | start => exact fun levels => .inl ⟨levels, .start, Nat.add_comm _ _⟩
  | @signed _ _ _ offset input _ _ signs _ ih =>
      intro levels
      cases levels with
      | zero => exact .inr ⟨_, _, _, .start signs.encloses input⟩
      | succ levels =>
          rcases ih levels with ⟨left, begun, same⟩ | ⟨before, opening, after, full⟩
          · exact .inl ⟨left, .signed signs begun, by omega⟩
          · exact .inr ⟨_, _, _, full.signed signs offset⟩
  | @opened _ offset input _ _ _ ih =>
      intro levels
      cases levels with
      | zero => exact .inr ⟨_, _, _, .start .leftParen input⟩
      | succ levels =>
          rcases ih levels with ⟨left, begun, same⟩ | ⟨before, opening, after, full⟩
          · exact .inl ⟨left, .opened begun, by omega⟩
          · have inside := full.opened offset []
            rw [List.append_nil] at inside
            exact .inr ⟨_, _, _, inside⟩
  | @unclosed _ offset input _ depth derives _ =>
      intro levels
      cases levels with
      | zero => exact .inr ⟨_, _, _, .start .leftParen input⟩
      | succ levels =>
          by_cases shallow : depth ≤ levels
          · exact .inl ⟨levels, .unclosed derives shallow, by omega⟩
          · obtain ⟨before, opening, after, full⟩ :=
              derives.exists_full levels (Nat.lt_of_not_le shallow)
            have inside := full.opened offset []
            rw [List.append_nil] at inside
            exact .inr ⟨_, _, _, inside⟩
  | first chains _ ih =>
      intro levels
      rcases ih levels with ⟨left, begun, same⟩ | ⟨before, opening, after, full⟩
      · exact .inl ⟨left, .first chains begun, same⟩
      · exact .inr ⟨_, _, _, full.first chains⟩
  | @next _ _ _ _ offset _ left _ depth _ _ _ chains joins derives _ _ ih =>
      intro levels
      by_cases shallow : depth ≤ levels
      · rcases ih levels with ⟨left, begun, same⟩ | ⟨before, opening, after, full⟩
        · exact .inl ⟨left, .next chains joins derives shallow begun, same⟩
        · exact .inr ⟨_, _, _, full.next chains joins derives shallow offset⟩
      · obtain ⟨before, opening, after, full⟩ :=
          derives.exists_full levels (Nat.lt_of_not_le shallow)
        exact .inr ⟨_, _, _, full.append _⟩

/-! ## Counting what encloses -/

theorem Begun.enclosedBy {room : Nat} {before : List Lexeme} {expected : Expected}
    (begun : Begun category levels before expected room) (operand : expected = .operand) :
    ∃ count, EnclosedBy category before count ∧ count + room = levels := by
  induction begun with
  | start => exact ⟨0, .start, Nat.zero_add _⟩
  | signed signs _ ih =>
      obtain ⟨count, enclosed, same⟩ := ih operand
      exact ⟨count + 1, .signed signs enclosed, by omega⟩
  | opened _ ih =>
      obtain ⟨count, enclosed, same⟩ := ih operand
      exact ⟨count + 1, .opened enclosed, by omega⟩
  | unclosed => cases operand
  | first chains _ ih =>
      obtain ⟨count, enclosed, same⟩ := ih operand
      exact ⟨count, .first chains enclosed, same⟩
  | next chains joins derives _ _ ih =>
      obtain ⟨count, enclosed, same⟩ := ih operand
      exact ⟨count, .next chains joins derives enclosed, same⟩

namespace EnclosedBy

variable {before : List Lexeme} {count : Nat}

theorem exists_begun (enclosed : EnclosedBy category before count) :
    ∃ room, Begun category (count + room) before .operand room := by
  induction enclosed with
  | start => exact ⟨0, .start⟩
  | signed signs _ ih =>
      obtain ⟨room, begun⟩ := ih
      exact ⟨room, by simpa [Nat.add_right_comm] using Begun.signed signs begun⟩
  | opened _ ih =>
      obtain ⟨room, begun⟩ := ih
      exact ⟨room, by simpa [Nat.add_right_comm] using Begun.opened begun⟩
  | first chains _ ih =>
      obtain ⟨room, begun⟩ := ih
      exact ⟨room, .first chains begun⟩
  | @next _ _ _ _ _ _ _ depth _ count chains joins derives _ ih =>
      obtain ⟨room, begun⟩ := ih
      have deeper := begun.deepen depth
      rw [Nat.add_assoc] at deeper
      exact ⟨room + depth, .next chains joins derives (by omega) deeper⟩

theorem count_le_length (enclosed : EnclosedBy category before count) : count ≤ before.length := by
  induction enclosed with
  | start => exact Nat.le_refl 0
  | signed _ _ ih => exact Nat.succ_le_succ ih
  | opened _ ih => exact Nat.succ_le_succ ih
  | first _ _ ih => exact ih
  | next _ _ _ _ ih =>
      simp only [List.length_append, List.length_cons]
      omega

/-- A prefix operator or parenthesis that as many enclose as there are levels, or more, is preceded
by one before which the levels are used up, or is one itself. -/
theorem exists_full (enclosed : EnclosedBy category before count) (beyond : levels ≤ count)
    {opening : Lexeme} (encloses : Encloses opening.token) (after : List Lexeme) :
    ∃ earlier first rest, Full category levels (before ++ opening :: after) earlier first rest := by
  obtain ⟨room, begun⟩ := enclosed.exists_begun
  rcases begun.lower levels with ⟨left, lowered, same⟩ | ⟨earlier, first, rest, full⟩
  · have none : left = 0 := by omega
    exact ⟨before, opening, after, rfl, encloses, none ▸ lowered⟩
  · exact ⟨earlier, first, _, full.append _⟩

theorem append_sign (enclosed : EnclosedBy category before count) {sign : Token}
    {operator : UnaryOperator} (signs : Signs sign operator) (offset : Nat) :
    EnclosedBy category (before ++ [⟨sign, offset⟩]) (count + 1) := by
  induction enclosed with
  | start => exact .signed signs .start
  | signed outer _ ih => exact .signed outer ih
  | opened _ ih => exact .opened ih
  | first chains _ ih => exact .first chains ih
  | next chains joins derives _ ih =>
      rw [List.append_assoc]
      exact .next chains joins derives ih

theorem append_signs (enclosed : EnclosedBy category before count) (more : Nat) :
    EnclosedBy category (before ++ List.replicate more ⟨.minus, 0⟩) (count + more) := by
  induction more with
  | zero => simpa using enclosed
  | succ more ih =>
      rw [List.replicate_succ', ← List.append_assoc]
      exact ih.append_sign .minus 0

theorem exists_signed (depth : Nat) :
    ∃ e, Derives .factor (List.replicate depth ⟨.minus, 0⟩ ++ [⟨.number 0, 0⟩]) e depth := by
  induction depth with
  | zero => exact ⟨_, .number⟩
  | succ depth ih =>
      obtain ⟨e, derives⟩ := ih
      exact ⟨_, .signed .minus derives⟩

theorem not_lt {other : Nat} (enclosed : EnclosedBy category before count)
    (otherEnclosed : EnclosedBy category before other) : ¬ count < other := by
  intro lower
  -- One more sign than there is room for fits by the lower count, and is too deep by the greater.
  obtain ⟨room, begun⟩ := enclosed.exists_begun
  obtain ⟨e, signed⟩ := exists_signed (room + 1)
  obtain ⟨rest, e, depth, derives, shallow⟩ := (begun.deepen 1).complete (.operand signed)
  have encloses : Encloses (Lexeme.mk .minus 0).token := .minus
  obtain ⟨earlier, first, between, full⟩ :=
    (otherEnclosed.append_signs room).exists_full (Nat.le_refl _) encloses [⟨.number 0, 0⟩]
  have fits : depth ≤ other + room := by
    have within := shallow (Nat.le_refl _)
    omega
  have split : Derives category (before ++ List.replicate room ⟨.minus, 0⟩ ++
      (⟨.minus, 0⟩ :: [⟨.number 0, 0⟩]) ++ rest) e depth := by
    simpa [List.replicate_succ'] using derives
  exact full.not_derives fits split

/-- The lexemes before an operand tell how many enclose it. -/
theorem unique {other : Nat} (enclosed : EnclosedBy category before count)
    (otherEnclosed : EnclosedBy category before other) : count = other := by
  have notLess := enclosed.not_lt otherEnclosed
  have notGreater := otherEnclosed.not_lt enclosed
  omega

end EnclosedBy

theorem Derives.fits {input rest : List Lexeme} {e : Expr} {depth : Nat}
    (derives : Derives category (input ++ rest) e depth) (shallow : depth ≤ levels) :
    Fits category levels input := by
  intro before opening after count split encloses enclosed
  apply Nat.lt_of_not_le
  intro beyond
  obtain ⟨earlier, first, between, full⟩ := enclosed.exists_full beyond encloses after
  rw [← split] at full
  exact full.not_derives shallow derives

theorem Begun.fits {room : Nat} {input : List Lexeme} {expected : Expected}
    (begun : Begun category levels input expected room) : Fits category levels input := by
  obtain ⟨rest, e, depth, derives, shallow⟩ := begun.viable
  exact derives.fits shallow

theorem Full.firstBeyond {input before after : List Lexeme} {opening : Lexeme}
    (full : Full category levels input before opening after) :
    FirstBeyond category levels input before opening after := by
  obtain ⟨count, enclosed, same⟩ := full.begun.enclosedBy rfl
  exact ⟨full.split, full.encloses, ⟨count, enclosed, Nat.le_of_eq same.symm⟩, full.begun.fits⟩

end Calculator.Grammar
