import Calculator.Proofs.Grammar.Derivation

/-!
# Beginnings of phrases

A phrase that breaks off, together with what is due where it does. Whatever supplies what is due can
be completed to a whole phrase, and the last lexeme and the parentheses alone tell what is due.
-/

set_option autoImplicit false

namespace Calculator.Grammar

/-- `Begun category levels input expected room`: the lexemes of `input` begin a phrase of the
category, and `expected` is due after them. No more than `levels` prefix operators and groups enclose
one another so far, and `room` more may enclose what is due. -/
inductive Begun : Category → Nat → List Lexeme → Expected → Nat → Prop where
  | start {levels} : Begun .factor levels [] .operand levels
  | signed {levels sign operator offset input expected room} :
      Signs sign operator → Begun .factor levels input expected room →
      Begun .factor (levels + 1) (⟨sign, offset⟩ :: input) expected room
  | opened {levels offset input expected room} :
      Begun .sum levels input expected room →
      Begun .factor (levels + 1) (⟨.leftParen, offset⟩ :: input) expected room
  | unclosed {levels offset input e depth} :
      Derives .sum input e depth → depth ≤ levels →
      Begun .factor (levels + 1) (⟨.leftParen, offset⟩ :: input) .closingParen levels
  | first {outer inner levels input expected room} :
      Chains outer inner → Begun inner levels input expected room →
      Begun outer levels input expected room
  | next {outer inner token operator offset levels left l depth input expected room} :
      Chains outer inner → Joins outer token operator → Derives outer left l depth →
      depth ≤ levels → Begun inner levels input expected room →
      Begun outer levels (left ++ ⟨token, offset⟩ :: input) expected room

/-- The lexemes that supply what is due, and the depth that they add. -/
inductive Supplies : Expected → List Lexeme → Nat → Prop where
  | operand {input e depth} : Derives .factor input e depth → Supplies .operand input depth
  | closingParen {offset} : Supplies .closingParen [⟨.rightParen, offset⟩] 0

/-- What is due after the lexemes read so far, told from the last of them and the number of open
parentheses. -/
def Due (read : List Lexeme) : Expected → Prop
  | .operand => ∀ last ∈ read.getLast?, Leads last.token
  | .closingParen => (∃ last ∈ read.getLast?, Completes last.token) ∧ closed read < opened read
  | .endOfExpression => (∃ last ∈ read.getLast?, Completes last.token) ∧ opened read = closed read

theorem Due.unique {read : List Lexeme} {expected other : Expected}
    (due : Due read expected) (otherDue : Due read other) : expected = other := by
  cases expected <;> cases other <;> simp only [Due] at due otherDue
  case operand.closingParen =>
      obtain ⟨⟨last, member, completes⟩, _⟩ := otherDue
      exact absurd (due last member) completes.not_leads
  case operand.endOfExpression =>
      obtain ⟨⟨last, member, completes⟩, _⟩ := otherDue
      exact absurd (due last member) completes.not_leads
  case closingParen.operand =>
      obtain ⟨⟨last, member, completes⟩, _⟩ := due
      exact absurd (otherDue last member) completes.not_leads
  case endOfExpression.operand =>
      obtain ⟨⟨last, member, completes⟩, _⟩ := due
      exact absurd (otherDue last member) completes.not_leads
  all_goals first | rfl | omega

/-- Nothing else is due if lexemes that leave an operand due stand in front, unless these close a
parenthesis too many. -/
theorem Due.append (before : List Lexeme) {read : List Lexeme} {lead : Lexeme} {expected : Expected}
    (due : Due read expected) (within : expected ≠ .endOfExpression) (leads : Leads lead.token)
    (balanced : closed (before ++ [lead]) ≤ opened (before ++ [lead])) :
    Due (before ++ lead :: read) expected := by
  have last : (before ++ lead :: read).getLast? = some (read.getLast?.getD lead) := by
    simp [List.getLast?_cons]
  cases expected with
  | operand =>
      intro final member
      rw [last] at member
      cases found : read.getLast? with
      | none => simp_all
      | some inner =>
          simp only [found, Option.getD_some, Option.mem_some_iff] at member
          exact member ▸ due inner found
  | closingParen =>
      obtain ⟨⟨final, member, completes⟩, open_⟩ := due
      refine ⟨⟨final, by simp_all, completes⟩, ?_⟩
      simp only [opened_append, closed_append, opened_cons, closed_cons, opened_nil,
        closed_nil] at balanced ⊢
      omega
  | endOfExpression => exact absurd rfl within

namespace Begun

variable {category : Category} {levels room : Nat} {input : List Lexeme} {expected : Expected}

theorem within (begun : Begun category levels input expected room) :
    expected ≠ .endOfExpression := by
  induction begun with
  | start => simp
  | signed _ _ ih => exact ih
  | opened _ ih => exact ih
  | unclosed => simp
  | first _ _ ih => exact ih
  | next _ _ _ _ _ ih => exact ih

theorem due (begun : Begun category levels input expected room) : Due input expected := by
  induction begun with
  | start => simp [Due]
  | signed signs begun ih =>
      exact Due.append [] ih begun.within signs.leads (by simp [signs.ne_paren])
  | opened begun ih =>
      exact Due.append [] ih begun.within .leftParen (by simp)
  | unclosed derives =>
      obtain ⟨last, member, completes⟩ := derives.completes
      refine ⟨⟨last, by simp_all [List.getLast?_cons], completes⟩, ?_⟩
      simp [derives.balanced]
  | first _ _ ih => exact ih
  | next _ joins derives _ begun ih =>
      exact Due.append _ ih begun.within joins.leads (by simp [joins.ne_paren, derives.balanced])

theorem deepen (begun : Begun category levels input expected room) (more : Nat) :
    Begun category (levels + more) input expected (room + more) := by
  induction begun with
  | start => exact .start
  | signed signs _ ih =>
      rw [Nat.add_right_comm]
      exact .signed signs ih
  | opened _ ih =>
      rw [Nat.add_right_comm]
      exact .opened ih
  | unclosed derives shallow =>
      rw [Nat.add_right_comm]
      exact .unclosed derives (Nat.le_add_right_of_le shallow)
  | first chains _ ih => exact .first chains ih
  | next chains joins derives shallow _ ih =>
      exact .next chains joins derives (Nat.le_add_right_of_le shallow) ih

/-- The beginning goes on to a whole phrase after anything that supplies what is due. -/
theorem complete (begun : Begun category levels input expected room) {part : List Lexeme}
    {partDepth : Nat} (supplies : Supplies expected part partDepth) :
    ∃ rest e depth, Derives category (input ++ (part ++ rest)) e depth ∧
      (partDepth ≤ room → depth ≤ levels) := by
  induction begun with
  | start =>
      cases supplies with
      | operand derives => exact ⟨[], _, _, by simpa using derives, id⟩
  | signed signs _ ih =>
      obtain ⟨rest, e, depth, derives, shallow⟩ := ih supplies
      exact ⟨rest, _, _, .signed signs derives, fun fits => Nat.succ_le_succ (shallow fits)⟩
  | @opened _ offset input _ _ _ ih =>
      obtain ⟨rest, e, depth, derives, shallow⟩ := ih supplies
      have whole : Derives .factor
          (⟨.leftParen, offset⟩ :: (input ++ (part ++ rest) ++ [⟨.rightParen, offset⟩])) e
          (depth + 1) := .group derives
      exact ⟨rest ++ [⟨.rightParen, offset⟩], e, depth + 1, by simpa using whole,
        fun fits => Nat.succ_le_succ (shallow fits)⟩
  | @unclosed _ _ _ e depth derives shallow =>
      cases supplies with
      | closingParen =>
          refine ⟨[], e, depth + 1, ?_, fun _ => Nat.succ_le_succ shallow⟩
          simpa using Derives.group derives
  | first chains _ ih =>
      obtain ⟨rest, e, depth, derives, shallow⟩ := ih supplies
      exact ⟨rest, e, depth, .single chains derives, shallow⟩
  | @next outer _ token _ offset _ left _ _ input _ _ chains joins derives leftShallow _ ih =>
      obtain ⟨rest, e, depth, right, shallow⟩ := ih supplies
      have whole : Derives outer (left ++ ⟨token, offset⟩ :: (input ++ (part ++ rest))) _ _ :=
        .joined chains joins derives right
      exact ⟨rest, _, _, by simpa using whole,
        fun fits => Nat.max_le.mpr ⟨leftShallow, shallow fits⟩⟩

theorem exists_supplies (begun : Begun category levels input expected room) :
    ∃ part, Supplies expected part 0 := by
  cases expected with
  | operand => exact ⟨[⟨.number 0, 0⟩], .operand .number⟩
  | closingParen => exact ⟨[⟨.rightParen, 0⟩], .closingParen⟩
  | endOfExpression => exact absurd rfl begun.within

theorem viable (begun : Begun category levels input expected room) :
    ∃ rest e depth, Derives category (input ++ rest) e depth ∧ depth ≤ levels := by
  obtain ⟨part, supplies⟩ := begun.exists_supplies
  obtain ⟨rest, e, depth, derives, shallow⟩ := begun.complete supplies
  exact ⟨part ++ rest, e, depth, derives, shallow (Nat.zero_le room)⟩

theorem proper (begun : Begun category levels input expected room) :
    ∀ lexeme ∈ input, lexeme.token ≠ .endMarker ∧ lexeme.token ≠ .blank := by
  obtain ⟨rest, e, depth, derives, _⟩ := begun.viable
  exact fun lexeme member => derives.proper lexeme (List.mem_append_left rest member)

end Begun

end Calculator.Grammar
