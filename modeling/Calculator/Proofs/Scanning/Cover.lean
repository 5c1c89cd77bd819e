import Calculator.Token.Scanner

/-!
# Covers of a source

How lexemes cover a text: texts of tokens, each the longest at its place, alternate with gaps of
separators. Every text is covered up to its end or up to a character that belongs to no token.
-/

set_option autoImplicit false

namespace Calculator.Scanning

/-! ## Bytes -/

def byteSize (text : List Char) : Nat :=
  (String.ofList text).utf8ByteSize

@[simp] theorem byteSize_nil : byteSize [] = 0 := rfl

@[simp] theorem byteSize_append (text more : List Char) :
    byteSize (text ++ more) = byteSize text + byteSize more := by
  simp [byteSize, String.ofList_append, String.utf8ByteSize_append]

theorem byteSize_singleton (c : Char) : byteSize [c] = c.utf8Size :=
  String.utf8ByteSize_singleton

theorem byteSize_toList (source : String) : byteSize source.toList = source.utf8ByteSize := by
  rw [byteSize, String.ofList_toList]

theorem byteSize_eq_length {text : List Char} (ascii : ∀ c ∈ text, c.val ≤ 127) :
    byteSize text = text.length := by
  induction text with
  | nil => rfl
  | cons c text ih =>
      have single : byteSize [c] = 1 := by
        rw [byteSize_singleton]
        exact Char.utf8Size_eq_one_iff.mpr (ascii c List.mem_cons_self)
      have rest := ih fun later member => ascii later (List.mem_cons_of_mem c member)
      have split : byteSize (c :: text) = byteSize [c] + byteSize text := byteSize_append [c] text
      rw [split, single, rest, List.length_cons, Nat.add_comm]

/-! ## Runs of characters -/

/-- Whether a run of characters that satisfy `p` ends before `following`. -/
def EndsBefore (p : Char → Bool) (following : List Char) : Prop :=
  ∀ c ∈ following.head?, p c = false

theorem EndsBefore.of_head {p : Char → Bool} {c : Char} (refused : p c = false)
    (following : List Char) : EndsBefore p (c :: following) := by
  rintro _ ⟨⟩
  exact refused

theorem EndsBefore.ne_cons {p : Char → Bool} {following : List Char} (ends : EndsBefore p following)
    {c : Char} (accepted : p c = true) (tail : List Char) : following ≠ c :: tail := by
  rintro rfl
  exact absurd accepted (by simp [ends c rfl])

/-- Where a run ends, so does one that fewer characters satisfy. -/
theorem EndsBefore.mono {p q : Char → Bool} {following : List Char} (ends : EndsBefore p following)
    (fewer : ∀ c, q c = true → p c = true) : EndsBefore q following := by
  intro c head
  have refused := mt (fewer c) (by simp [ends c head])
  simpa using refused

theorem EndsBefore.of_append {p : Char → Bool} {following more : List Char}
    (ends : EndsBefore p (following ++ more)) : EndsBefore p following := by
  cases following with
  | nil => exact nofun
  | cons c following => exact ends

theorem endsBefore_dropWhile (p : Char → Bool) (text : List Char) :
    EndsBefore p (text.dropWhile p) := by
  intro c head
  have refused := List.head?_dropWhile_not p text
  rw [Option.mem_def.mp head] at refused
  simpa using refused

theorem all_takeWhile (p : Char → Bool) (text : List Char) :
    ∀ c ∈ text.takeWhile p, p c = true :=
  List.all_eq_true.mp List.all_takeWhile

theorem EndsBefore.takeWhile_append {p : Char → Bool} {run following : List Char}
    (ends : EndsBefore p following) (all : ∀ c ∈ run, p c = true) :
    (run ++ following).takeWhile p = run := by
  rw [List.takeWhile_append_of_pos all]
  cases following with
  | nil => simp
  | cons c following => simp [ends c rfl]

theorem EndsBefore.dropWhile_append {p : Char → Bool} {run following : List Char}
    (ends : EndsBefore p following) (all : ∀ c ∈ run, p c = true) :
    (run ++ following).dropWhile p = following := by
  rw [List.dropWhile_append_of_pos all]
  cases following with
  | nil => rfl
  | cons c following => simp [ends c rfl]

/-- Two runs that end before what follows them are cut off at the same place. -/
theorem EndsBefore.append_inj {p : Char → Bool} {run run' following following' : List Char}
    (ends : EndsBefore p following) (ends' : EndsBefore p following') (all : ∀ c ∈ run, p c = true)
    (all' : ∀ c ∈ run', p c = true) (same : run ++ following = run' ++ following') :
    run = run' ∧ following = following' := by
  have runs := congrArg (List.takeWhile p) same
  have rests := congrArg (List.dropWhile p) same
  simp only [ends.takeWhile_append all, ends'.takeWhile_append all'] at runs
  simp only [ends.dropWhile_append all, ends'.dropWhile_append all'] at rests
  exact ⟨runs, rests⟩

/-! ## Texts of tokens -/

def Digits (text : List Char) : Prop :=
  text ≠ [] ∧ ∀ c ∈ text, c.isDigit = true

theorem Digits.isDigit_head {digits more rest : List Char} {c : Char} (isDigits : Digits digits)
    (split : digits ++ more = c :: rest) : c.isDigit = true := by
  obtain ⟨filled, all⟩ := isDigits
  cases digits with
  | nil => exact absurd rfl filled
  | cons first digits =>
      cases split
      exact all c List.mem_cons_self

/-- `Munches text token following`: before `following`, the longest text of one token is `text`, and
`token` is what it denotes. -/
inductive Munches : List Char → Token → List Char → Prop where
  | plus {following} : Munches ['+'] .plus following
  | minus {following} : Munches ['-'] .minus following
  | star {following} : Munches ['*'] .star following
  | slash {following} : Munches ['/'] .slash following
  | leftParen {following} : Munches ['('] .leftParen following
  | rightParen {following} : Munches [')'] .rightParen following
  | whole {digits following} :
      Digits digits → EndsBefore Char.isDigit following →
      (∀ tail, following = '.' :: tail → EndsBefore Char.isDigit tail) →
      Munches digits (.number (Decimal.ofDigits digits []).nearest.toFloat) following
  | decimal {digits fraction following} :
      Digits digits → Digits fraction → EndsBefore Char.isDigit following →
      Munches (digits ++ '.' :: fraction)
        (.number (Decimal.ofDigits digits fraction).nearest.toFloat) following

/-- `Covers offset text lexemes following`: a text that starts at the byte `offset`, in front of
`following`, consists of the texts of the lexemes and of separators before each of them. -/
inductive Covers : Nat → List Char → List Lexeme → List Char → Prop where
  | nil {offset following} : Covers offset [] [] following
  | cons {offset gap text token rest lexemes following} :
      (∀ c ∈ gap, isSeparator c = true) → Munches text token (rest ++ following) →
      Covers (offset + byteSize gap + byteSize text) rest lexemes following →
      Covers offset (gap ++ text ++ rest) (⟨token, offset + byteSize gap⟩ :: lexemes) following

/-- Whether a character neither belongs to a token nor separates tokens. -/
def Foreign (c : Char) : Prop :=
  isSeparator c = false ∧ c.isDigit = false ∧ c ∉ ['+', '-', '*', '/', '(', ')']

namespace Munches

variable {text following : List Char} {token : Token}

theorem proper (munches : Munches text token following) :
    token ≠ .endMarker ∧ token ≠ .blank := by
  cases munches <;> simp

theorem ne_nil (munches : Munches text token following) : text ≠ [] := by
  cases munches with
  | whole digits => exact digits.1
  | decimal => simp
  | _ => simp

theorem of_append {more : List Char} (munches : Munches text token (following ++ more)) :
    Munches text token following := by
  cases munches with
  | plus => exact .plus
  | minus => exact .minus
  | star => exact .star
  | slash => exact .slash
  | leftParen => exact .leftParen
  | rightParen => exact .rightParen
  | whole digits ends point =>
      refine .whole digits ends.of_append ?_
      intro tail pointed
      have longer : EndsBefore Char.isDigit (tail ++ more) := point _ (by rw [pointed]; rfl)
      exact longer.of_append
  | decimal digits fraction ends => exact .decimal digits fraction ends.of_append

end Munches

/-! ## Characters of tokens -/

theorem ascii_of_isDigit {c : Char} (digit : c.isDigit = true) : c.val ≤ 127 := by
  simp only [Char.isDigit, Bool.and_eq_true, decide_eq_true_eq] at digit
  exact UInt32.le_trans digit.2 (by decide)

theorem ascii_of_isSeparator {c : Char} (separates : isSeparator c = true) : c.val ≤ 127 := by
  simp only [isSeparator, Bool.or_eq_true, beq_iff_eq] at separates
  rcases separates with (((rfl | rfl) | rfl) | rfl) | rfl <;> decide

theorem not_isSeparator_of_isDigit {c : Char} (digit : c.isDigit = true) :
    isSeparator c = false := by
  cases separates : isSeparator c with
  | false => rfl
  | true =>
      simp only [isSeparator, Bool.or_eq_true, beq_iff_eq] at separates
      rcases separates with (((rfl | rfl) | rfl) | rfl) | rfl <;> cases digit

theorem Munches.ascii {text following : List Char} {token : Token}
    (munches : Munches text token following) : ∀ c ∈ text, c.val ≤ 127 := by
  cases munches with
  | whole digits => exact fun c member => ascii_of_isDigit (digits.2 c member)
  | decimal digits fraction =>
      intro c member
      rcases List.mem_append.mp member with member | member
      · exact ascii_of_isDigit (digits.2 c member)
      · rcases List.mem_cons.mp member with rfl | member
        · decide
        · exact ascii_of_isDigit (fraction.2 c member)
  | _ =>
      intro c member
      rw [List.mem_singleton.mp member]
      decide

/-- No gap goes on into the text of a token. -/
theorem Munches.endsGap {text following : List Char} {token : Token}
    (munches : Munches text token following) (more : List Char) :
    EndsBefore isSeparator (text ++ more) := by
  cases munches with
  | whole isDigits =>
      intro c head
      obtain ⟨rest, split⟩ := List.head?_eq_some_iff.mp head
      exact not_isSeparator_of_isDigit (isDigits.isDigit_head split)
  | decimal isDigits =>
      intro c head
      obtain ⟨rest, split⟩ := List.head?_eq_some_iff.mp head
      rw [List.append_assoc] at split
      exact not_isSeparator_of_isDigit (isDigits.isDigit_head split)
  | _ =>
      intro c head
      cases head
      decide

/-! ## Every text is covered -/

theorem exists_munches_of_isDigit {c : Char} (digit : c.isDigit = true) (rest : List Char) :
    ∃ text token following, c :: rest = text ++ following ∧ Munches text token following := by
  let digits := (c :: rest).takeWhile Char.isDigit
  let following := (c :: rest).dropWhile Char.isDigit
  have split : c :: rest = digits ++ following := List.takeWhile_append_dropWhile.symm
  have isDigits : Digits digits :=
    ⟨by simp [digits, digit], all_takeWhile _ _⟩
  have ends : EndsBefore Char.isDigit following := endsBefore_dropWhile _ _
  by_cases point : ∃ tail, following = '.' :: tail ∧ ¬ EndsBefore Char.isDigit tail
  · obtain ⟨tail, pointed, goesOn⟩ := point
    let fraction := tail.takeWhile Char.isDigit
    have tailSplit : tail = fraction ++ tail.dropWhile Char.isDigit :=
      List.takeWhile_append_dropWhile.symm
    have isFraction : Digits fraction := by
      refine ⟨?_, all_takeWhile _ _⟩
      intro empty
      rw [empty] at tailSplit
      exact goesOn (tailSplit ▸ endsBefore_dropWhile _ _)
    refine ⟨digits ++ '.' :: fraction, _, tail.dropWhile Char.isDigit, ?_,
      .decimal isDigits isFraction (endsBefore_dropWhile _ _)⟩
    rw [split, pointed, List.append_assoc, List.cons_append, ← tailSplit]
  · refine ⟨digits, _, following, split, .whole isDigits ends ?_⟩
    intro tail pointed
    exact Classical.byContradiction fun goesOn => point ⟨tail, pointed, goesOn⟩

theorem exists_munches {c : Char} (separates : isSeparator c = false) (domestic : ¬ Foreign c)
    (rest : List Char) :
    ∃ text token following, c :: rest = text ++ following ∧ Munches text token following := by
  by_cases digit : c.isDigit = true
  · exact exists_munches_of_isDigit digit rest
  · have symbol : c ∈ ['+', '-', '*', '/', '(', ')'] :=
      Classical.byContradiction fun other =>
        domestic ⟨separates, Bool.eq_false_iff.mpr digit, other⟩
    simp only [List.mem_cons, List.not_mem_nil, or_false] at symbol
    rcases symbol with rfl | rfl | rfl | rfl | rfl | rfl
    · exact ⟨_, _, rest, rfl, .plus⟩
    · exact ⟨_, _, rest, rfl, .minus⟩
    · exact ⟨_, _, rest, rfl, .star⟩
    · exact ⟨_, _, rest, rfl, .slash⟩
    · exact ⟨_, _, rest, rfl, .leftParen⟩
    · exact ⟨_, _, rest, rfl, .rightParen⟩

/-- Lexemes cover every text up to its last gap, or up to the gap before its first foreign
character. -/
theorem exists_covers (offset : Nat) (source : List Char) :
    ∃ text lexemes gap ending, source = text ++ (gap ++ ending) ∧
      Covers offset text lexemes (gap ++ ending) ∧ (∀ c ∈ gap, isSeparator c = true) ∧
      ∀ c ∈ ending.head?, Foreign c := by
  induction size : source.length using Nat.strongRecOn generalizing offset source with
  | ind length ih =>
      let gap := source.takeWhile isSeparator
      have separators : ∀ c ∈ gap, isSeparator c = true := all_takeWhile _ _
      have ends : EndsBefore isSeparator (source.dropWhile isSeparator) := endsBefore_dropWhile _ _
      have split : source = gap ++ source.dropWhile isSeparator :=
        List.takeWhile_append_dropWhile.symm
      cases remaining : source.dropWhile isSeparator with
      | nil => exact ⟨[], [], gap, [], by simpa [remaining] using split, .nil, separators, nofun⟩
      | cons c rest =>
          rw [remaining] at ends split
          by_cases foreign : Foreign c
          · refine ⟨[], [], gap, c :: rest, split, .nil, separators, ?_⟩
            intro first head
            cases head
            exact foreign
          · obtain ⟨text, token, following, munched, munches⟩ :=
              exists_munches (ends c rfl) foreign rest
            have shorter : following.length < length := by
              have filled := List.length_pos_iff.mpr munches.ne_nil
              rw [← size, split, munched]
              simp only [List.length_append]
              omega
            obtain ⟨covered, lexemes, lastGap, ending, rfl, covers, lastSeparators, final⟩ :=
              ih _ shorter (offset + byteSize gap + byteSize text) following rfl
            refine ⟨gap ++ text ++ covered, ⟨token, offset + byteSize gap⟩ :: lexemes, lastGap,
              ending, ?_, .cons separators munches covers, lastSeparators, final⟩
            rw [split, munched]
            simp

namespace Covers

variable {offset : Nat} {text following : List Char} {lexemes : List Lexeme}

theorem of_append {more : List Char} (covers : Covers offset text lexemes (following ++ more)) :
    Covers offset text lexemes following := by
  generalize same : following ++ more = longer at covers
  induction covers with
  | nil => exact .nil
  | cons separators munches _ ih =>
      subst same
      rw [← List.append_assoc] at munches
      exact .cons separators munches.of_append (ih rfl)

theorem proper (covers : Covers offset text lexemes following) :
    ∀ lexeme ∈ lexemes, lexeme.token ≠ .endMarker ∧ lexeme.token ≠ .blank := by
  induction covers with
  | nil => exact nofun
  | cons _ munches _ ih =>
      intro lexeme member
      rcases List.mem_cons.mp member with rfl | member
      · exact munches.proper
      · exact ih lexeme member

theorem offset_le (covers : Covers offset text lexemes following) :
    ∀ lexeme ∈ lexemes, offset ≤ lexeme.offset := by
  induction covers with
  | nil => exact nofun
  | cons _ _ _ ih =>
      intro lexeme member
      rcases List.mem_cons.mp member with rfl | member
      · exact Nat.le_add_right _ _
      · have later := ih lexeme member
        omega

theorem increasing (covers : Covers offset text lexemes following) :
    lexemes.Pairwise fun earlier later => earlier.offset < later.offset := by
  induction covers with
  | nil => exact .nil
  | cons _ munches covers ih =>
      refine .cons ?_ ih
      intro later member
      have filled := List.length_pos_iff.mpr munches.ne_nil
      have after := covers.offset_le later member
      rw [byteSize_eq_length munches.ascii] at after
      simp only
      omega

theorem length_le (covers : Covers offset text lexemes following) :
    lexemes.length ≤ text.length := by
  induction covers with
  | nil => exact Nat.le_refl 0
  | cons _ munches _ ih =>
      have filled := List.length_pos_iff.mpr munches.ne_nil
      simp only [List.length_append, List.length_cons]
      omega

end Covers

end Calculator.Scanning
