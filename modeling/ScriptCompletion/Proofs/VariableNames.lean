import ScriptCompletion.Proofs.HeadingEvaluation

namespace ScriptCompletion

/-!
# Names of variables are read as they are written

A dollar sign starts a variable, and a variable goes on up to the next character that
ends a word.  No letter, digit or underscore does, so a name is one token, alone and
wherever else it stands between two lexemes.  As an argument this token stands for the
text of the variable, and `set` binds the name that the token holds.
-/

theorem isVariableName_iff
    {text : String} :
    isVariableName text = true ↔
      ∃ first rest,
        text.toList = '$' :: first :: rest ∧
          startsVariableName first = true ∧
          ∀ character ∈ rest, continuesVariableName character = true := by
  unfold isVariableName
  split
  · rename_i first rest shape
    simp [shape, and_assoc]
  · rename_i other
    constructor
    · intro impossible
      cases impossible
    · rintro ⟨first, rest, shape, -⟩
      exact absurd shape (other first rest)

/-- What can start a name can also stand further on. -/
theorem continues_of_starts
    {character : Char}
    (starts : startsVariableName character = true) :
    continuesVariableName character = true := by
  rcases Bool.or_eq_true_iff.mp starts with isLetter | isUnderscore
  · exact Bool.or_eq_true_iff.mpr (.inl (Bool.or_eq_true_iff.mpr (.inl isLetter)))
  · exact Bool.or_eq_true_iff.mpr (.inr isUnderscore)

/-- Letters, digits and the underscore lie between the digit zero and the letter z. -/
theorem code_of_continues
    {character : Char}
    (continues : continuesVariableName character = true) :
    '0'.toNat ≤ character.toNat ∧ character.toNat ≤ 'z'.toNat := by
  have between
      {first last : Char}
      (atLeast : '0'.toNat ≤ first.toNat)
      (atMost : last.toNat ≤ 'z'.toNat)
      (inRange : first.val ≤ character.val ∧ character.val ≤ last.val) :
      '0'.toNat ≤ character.toNat ∧ character.toNat ≤ 'z'.toNat :=
    ⟨Nat.le_trans atLeast (UInt32.le_iff_toNat_le.mp inRange.1),
      Nat.le_trans (UInt32.le_iff_toNat_le.mp inRange.2) atMost⟩
  rcases Bool.or_eq_true_iff.mp continues with isAlphanum | isUnderscore
  · rcases Bool.or_eq_true_iff.mp isAlphanum with isLetter | isDigit
    · rcases Bool.or_eq_true_iff.mp isLetter with isUpper | isLower
      · exact between (by decide) (by decide) (of_decide_eq_true isUpper)
      · have bounds := Bool.and_eq_true_iff.mp isLower
        exact between (by decide) (by decide)
          ⟨of_decide_eq_true bounds.1, of_decide_eq_true bounds.2⟩
    · have bounds := Bool.and_eq_true_iff.mp isDigit
      exact between (by decide) (by decide)
        ⟨of_decide_eq_true bounds.1, of_decide_eq_true bounds.2⟩
  · rw [beq_iff_eq.mp isUnderscore]
    decide

theorem isWordBoundary_of_continues
    {character : Char}
    (continues : continuesVariableName character = true) :
    Script.isWordBoundary character = false := by
  obtain ⟨least, most⟩ := code_of_continues continues
  have zero : '0'.toNat = 48 := rfl
  have last : 'z'.toNat = 122 := rfl
  have notWhitespace : Text.isWhitespace character = false := by
    simp only [Text.isWhitespace, Bool.or_eq_false_iff, Bool.and_eq_false_iff,
      decide_eq_false_iff_not, beq_eq_false_iff_ne]
    omega
  have other
      {delimiter : Char}
      (below : delimiter.toNat < '0'.toNat) :
      (character == delimiter) = false := by
    rw [beq_eq_false_iff_ne]
    rintro rfl
    omega
  rw [Script.isWordBoundary, notWhitespace, other (by decide), other (by decide),
    other (by decide), other (by decide)]
  rfl

/-- No character of a name ends a word. -/
theorem isWordBoundary_of_mem_name
    {name : String}
    (isName : isVariableName name = true) :
    ∀ character ∈ name.toList, Script.isWordBoundary character = false := by
  obtain ⟨first, rest, shape, starts, continues⟩ := isVariableName_iff.mp isName
  rw [shape]
  simp only [List.forall_mem_cons]
  refine ⟨by decide, isWordBoundary_of_continues (continues_of_starts starts), ?_⟩
  intro character member
  exact isWordBoundary_of_continues (continues character member)

namespace Script

/-- The token that a variable becomes where it starts at a column of a line. -/
def Token.ofName
    (name : String)
    (line column : Nat) : Token where
  kind := .variable
  value := name
  line := line
  column := column
  stopColumn := column + name.length

namespace Lexer

/-- A variable goes on up to the next character that ends a word. -/
theorem foldl_step_reading
    {characters : List Char}
    (plain : ∀ character ∈ characters, isWordBoundary character = false)
    {lexer : Lexer}
    {start : Nat}
    {text : List Char}
    (reading : lexer.mode = .reading .variable start text) :
    characters.foldl step lexer =
      { lexer with
        column := lexer.column + characters.length
        mode := .reading .variable start (characters.reverse ++ text) } := by
  induction characters generalizing lexer text with
  | nil =>
      simp [← reading]
  | cons character rest inductionHypothesis =>
      rw [List.forall_mem_cons] at plain
      have sameLine : character ≠ '\n' := by
        rintro rfl
        exact absurd plain.1 (by decide)
      have extended :
          lexer.step character =
            { lexer with
              column := lexer.column + 1
              mode := .reading .variable start (character :: text) } := by
        simp [step, sameLine, advance, reading, Lexeme.receive, plain.1]
      rw [List.foldl_cons, extended, inductionHypothesis plain.2 rfl]
      simp [Nat.add_assoc, Nat.add_comm 1]

/-- Between two lexemes a name begins a variable and is read to its end. -/
theorem foldl_step_name
    {name : String}
    (isName : isVariableName name = true)
    {lexer : Lexer}
    (idle : lexer.mode = .idle) :
    name.toList.foldl step lexer =
      { lexer with
        column := lexer.column + name.length
        mode := .reading .variable lexer.column name.toList.reverse } := by
  have plain := isWordBoundary_of_mem_name isName
  obtain ⟨first, rest, shape, -⟩ := isVariableName_iff.mp isName
  rw [← String.length_toList]
  rw [shape] at plain ⊢
  rw [List.forall_mem_cons] at plain
  have begun :
      lexer.step '$' =
        { lexer with
          column := lexer.column + 1
          mode := .reading .variable lexer.column ['$'] } := by
    simp [step, advance, idle, Lexer.start, Lexeme.startedBy, isQuote,
      Text.isWhitespace]
  rw [List.foldl_cons, begun, foldl_step_reading plain.2 rfl]
  simp [Nat.add_assoc, Nat.add_comm 1]

/-- Where a name has been read and the next character ends the word, or the text ends, the
token of the name is recorded. -/
theorem tokens_interrupt_name
    (lexer : Lexer)
    (name : String) :
    ({ lexer with
        column := lexer.column + name.length
        mode := .reading .variable lexer.column name.toList.reverse } :
          Lexer).interrupt =
      { lexer with
        column := lexer.column + name.length
        mode := .idle
        tokens := .ofName name lexer.line lexer.column :: lexer.tokens } := by
  simp [interrupt, emit, report, Lexeme.interruption, Lexeme.kind, Token.ofName]

variable {token : Token}

theorem mem_tokens_interrupt
    {lexer : Lexer}
    (recorded : token ∈ lexer.tokens) :
    token ∈ lexer.interrupt.tokens := by
  unfold interrupt report emit
  split
  · exact recorded
  · exact recorded
  · split <;>
      exact List.mem_cons_of_mem _ recorded

theorem mem_tokens_start
    {lexer : Lexer}
    (recorded : token ∈ lexer.tokens)
    (character : Char) :
    token ∈ (lexer.start character).tokens := by
  unfold start emit
  split
  · exact recorded
  · split
    · exact recorded
    · split
      · exact List.mem_cons_of_mem _ recorded
      · split
        · exact List.mem_cons_of_mem _ recorded
        · exact recorded

/-- What has been recorded stays. -/
theorem mem_tokens_step
    {lexer : Lexer}
    (recorded : token ∈ lexer.tokens)
    (character : Char) :
    token ∈ (lexer.step character).tokens := by
  unfold step
  split
  · exact List.mem_cons_of_mem _ (mem_tokens_interrupt recorded)
  · unfold advance
    split
    · exact mem_tokens_start recorded character
    · exact recorded
    · split
      · exact recorded
      · exact List.mem_cons_of_mem _ recorded
      · exact mem_tokens_start (mem_tokens_interrupt recorded) character

theorem mem_tokens_foldl_step
    {lexer : Lexer}
    (recorded : token ∈ lexer.tokens)
    (characters : List Char) :
    token ∈ (characters.foldl step lexer).tokens := by
  induction characters generalizing lexer with
  | nil =>
      exact recorded
  | cons character rest inductionHypothesis =>
      exact inductionHypothesis (mem_tokens_step recorded character)

/-- A character that ends a word ends a variable. -/
theorem mem_tokens_step_of_isWordBoundary
    {lexer : Lexer}
    {start : Nat}
    {text : List Char}
    (reading : lexer.mode = .reading .variable start text)
    {character : Char}
    (ends : isWordBoundary character = true)
    (recorded : token ∈ lexer.interrupt.tokens) :
    token ∈ (lexer.step character).tokens := by
  by_cases isBreak : character = '\n'
  · subst character
    exact List.mem_cons_of_mem _ recorded
  · have refused : lexer.step character = lexer.interrupt.start character := by
      simp [step, isBreak, advance, reading, Lexeme.receive, ends]
    rw [refused]
    exact mem_tokens_start recorded character

end Lexer

/-- Alone a name is one token, and nothing is wrong with it. -/
theorem lex_name
    {name : String}
    (isName : isVariableName name = true) :
    lex name =
      { tokens :=
          [.ofName name 0 0,
            { kind := .endOfText
              value := ""
              line := 0
              column := name.length
              stopColumn := name.length }]
        problems := [] } := by
  have idle : Lexer.initial.mode = .idle := rfl
  have read := Lexer.foldl_step_name isName idle
  simp only [lex, Lexer.finish, read, Lexer.tokens_interrupt_name]
  simp [Lexer.emit, Lexer.initial]

/-- Between two lexemes, where the next character ends the word, a name is a token. -/
theorem mem_tokens_lex_of_name
    {name : String}
    (isName : isVariableName name = true)
    {before after : String}
    (idle : (before.toList.foldl Lexer.step .initial).mode = .idle)
    (ends : ∀ character ∈ after.toList.head?, isWordBoundary character = true) :
    let lexer := before.toList.foldl Lexer.step .initial
    Token.ofName name lexer.line lexer.column ∈
      (lex (before ++ name ++ after)).tokens := by
  intro lexer
  have read := Lexer.foldl_step_name isName idle
  have recorded :
      Token.ofName name lexer.line lexer.column ∈
        (name.toList.foldl Lexer.step lexer).interrupt.tokens := by
    rw [read, Lexer.tokens_interrupt_name]
    exact List.mem_cons_self
  simp only [lex, List.mem_reverse, String.toList_append, List.foldl_append]
  change _ ∈
    (after.toList.foldl Lexer.step (name.toList.foldl Lexer.step lexer)).finish.tokens
  apply List.mem_cons_of_mem
  -- The end of the text interrupts the lexeme as the end of a word does.
  cases shape : after.toList with
  | nil =>
      exact recorded
  | cons character rest =>
      rw [shape] at ends
      rw [List.foldl_cons]
      apply Lexer.mem_tokens_interrupt
      apply Lexer.mem_tokens_foldl_step
      exact Lexer.mem_tokens_step_of_isWordBoundary (congrArg Lexer.mode read)
        (ends character rfl) recorded

end Script

/-!
## What a name refers to
-/

/-- A variable token is a name as an argument. -/
theorem resolve_ofToken_of_variable
    {token : Script.Token}
    (isVariable : token.kind = .variable)
    (variableText? : String → Option String) :
    (Script.Argument.ofToken token).resolve variableText? =
      (variableText? token.value).getD token.value := by
  simp [Script.Argument.resolve, Script.Argument.ofToken, isVariable,
    Script.TokenKind.argumentKind]

/-- `set` binds the name that its first argument is written with. -/
theorem Standard.setBindings_eq_ok
    {request : EvaluationRequest}
    {target value : Script.Argument}
    {rest : List Script.Argument}
    (shape : request.command.arguments = target :: value :: rest)
    (isName : isVariableName target.raw = true) :
    setBindings request =
      .ok [.ofVariable target.raw (value.resolve request.variableText?)] := by
  simp [setBindings, shape, isName]

end ScriptCompletion
