import ScriptCompletion.Proofs.TokenOrder

namespace ScriptCompletion

/-!
# Tokens are stretches of their lines

The lexer keeps the characters of a lexeme together with the column at which it
was begun.  So the value of a token is what its line holds between the two
columns of the token, and a parenthesis is one character wide.  Only the tokens
that end a line hold nothing of it.

Tokens come line after line: a token stands on the line of the one before it,
unless that one is a line feed, which leads to the next line.
-/

namespace Text

/-- The text of a stretch that lies inside one line. -/
def textAt?
    (text : String)
    (span : Span) : Option String :=
  match (Lines.ofText text).get? span.start.line with
  | none =>
      none
  | some line =>
      if span.stop.line = span.start.line ∧
          span.start.column ≤ span.stop.column ∧
          span.stop.column ≤ line.length then
        some (String.ofList
          ((line.take span.stop.column).drop span.start.column))
      else
        none

end Text

namespace Script

/-- Whether the token is a stretch of the line. -/
structure Token.IsTextOf
    (line : List Char)
    (token : Token) : Prop where
  ordered :
    token.column ≤ token.stopColumn
  bounded :
    token.stopColumn ≤ line.length
  value :
    token.value = String.ofList ((line.take token.stopColumn).drop token.column)
  opening :
    token.kind = .opening →
    token.value = "("
  closing :
    token.kind = .closing →
    token.value = ")"

namespace Token.IsTextOf

/-- What is written behind a token does not matter to it. -/
theorem append
    {line : List Char}
    {token : Token}
    (isText : token.IsTextOf line)
    (more : List Char) :
    token.IsTextOf (line ++ more) where
  ordered := isText.ordered
  bounded := by
    have := isText.bounded
    rw [List.length_append]
    omega
  value := by
    rw [List.take_append_of_le_length isText.bounded]
    exact isText.value
  opening := isText.opening
  closing := isText.closing

theorem stopColumn_eq
    {line : List Char}
    {token : Token}
    (isText : token.IsTextOf line) :
    token.stopColumn = token.column + token.value.length := by
  have ordered := isText.ordered
  have bounded := isText.bounded
  rw [isText.value, String.length_ofList, List.length_drop, List.length_take]
  omega

end Token.IsTextOf

namespace Lexer

/-- What the lexer has recorded and what it keeps after the given characters of
its line. -/
structure Transcribes
    (line : List Char)
    (lexer : Lexer) : Prop where
  column :
    lexer.column = line.length
  tokens :
    ∀ token ∈ lexer.tokens, token.IsTextOf line
  reading :
    ∀ {lexeme start text},
      lexer.mode = .reading lexeme start text →
      start ≤ line.length ∧ text.reverse = line.drop start

namespace Transcribes

variable {line : List Char} {lexer : Lexer}

/-- The end of the line so far can be recorded as a token. -/
theorem emit
    (transcribes : lexer.Transcribes line)
    {start : Nat}
    (begun : start ≤ line.length)
    {kind : TokenKind}
    (noBracket : kind ≠ .opening ∧ kind ≠ .closing) :
    ∀ token ∈ (lexer.emit kind (line.drop start) start line.length).tokens,
      token.IsTextOf line := by
  intro token member
  rcases List.mem_cons.mp member with isNew | isOld
  · subst token
    exact
      { ordered := begun
        bounded := Nat.le_refl _
        value := by simp
        opening := fun isOpening => absurd isOpening noBracket.1
        closing := fun isClosing => absurd isClosing noBracket.2 }
  · exact transcribes.tokens token isOld

theorem kind_of_lexeme (lexeme : Lexeme) :
    lexeme.kind ≠ .opening ∧ lexeme.kind ≠ .closing := by
  cases lexeme <;> simp [Lexeme.kind]

/-- The lexeme that is being read can be ended. -/
theorem interrupt
    (transcribes : lexer.Transcribes line) :
    lexer.interrupt.Transcribes line := by
  obtain ⟨-, sameColumn, idle⟩ := interrupt_place lexer
  refine
    { column := sameColumn.trans transcribes.column
      tokens := ?_
      reading := by simp [idle] }
  cases mode : lexer.mode with
  | idle | comment =>
      simpa [Lexer.interrupt, mode] using transcribes.tokens
  | reading lexeme start text =>
      obtain ⟨begun, isText⟩ := transcribes.reading mode
      have recorded := transcribes.emit begun (kind_of_lexeme lexeme)
      rw [← isText, ← transcribes.column] at recorded
      cases cause : lexeme.interruption <;>
        simpa [Lexer.interrupt, mode, report, cause] using recorded

/-- The tokens of a line stay when it goes on. -/
theorem tokens_append
    (transcribes : lexer.Transcribes line)
    (character : Char) :
    ∀ token ∈ lexer.tokens, token.IsTextOf (line ++ [character]) :=
  fun token member => (transcribes.tokens token member).append [character]

/-- A parenthesis is a token of one character. -/
theorem bracket
    (transcribes : lexer.Transcribes line)
    {kind : TokenKind}
    {character : Char}
    (isOpening : kind = .opening → character = '(')
    (isClosing : kind = .closing → character = ')') :
    ∀ token ∈
        (lexer.emit kind [character] lexer.column (lexer.column + 1)).tokens,
      token.IsTextOf (line ++ [character]) := by
  intro token member
  rcases List.mem_cons.mp member with isNew | isOld
  · subst token
    exact
      { ordered := Nat.le_succ _
        bounded := by simp [transcribes.column]
        value := by simp [transcribes.column, List.take_of_length_le]
        opening := fun same => by rw [isOpening same]
        closing := fun same => by rw [isClosing same] }
  · exact transcribes.tokens_append character token isOld

/-- A character between lexemes is transcribed. -/
theorem start
    (transcribes : lexer.Transcribes line)
    (idle : lexer.mode = .idle)
    (character : Char) :
    (lexer.start character).Transcribes (line ++ [character]) := by
  have column : lexer.column + 1 = (line ++ [character]).length := by
    simp [transcribes.column]
  have tokens := transcribes.tokens_append character
  unfold Lexer.start
  split
  · exact ⟨column, tokens, by simp [idle]⟩
  · split
    · exact ⟨column, tokens, by simp⟩
    · split
      · rename_i isOpening
        refine ⟨column, ?_, by simp [Lexer.emit, idle]⟩
        exact transcribes.bracket (fun _ => isOpening) (by simp)
      · split
        · rename_i isClosing
          refine ⟨column, ?_, by simp [Lexer.emit, idle]⟩
          exact transcribes.bracket (by simp) (fun _ => isClosing)
        · refine ⟨column, tokens, ?_⟩
          intro lexeme start text isReading
          cases isReading
          simp [transcribes.column]

/-- Every character of a line is transcribed. -/
theorem advance
    (transcribes : lexer.Transcribes line)
    (character : Char) :
    (lexer.advance character).Transcribes (line ++ [character]) := by
  have column : lexer.column + 1 = (line ++ [character]).length := by
    simp [transcribes.column]
  have tokens := transcribes.tokens_append character
  unfold Lexer.advance
  cases mode : lexer.mode with
  | idle =>
      exact transcribes.start mode character
  | comment =>
      exact ⟨column, tokens, by simp⟩
  | reading lexeme start text =>
      obtain ⟨begun, isText⟩ := transcribes.reading mode
      have inside : start ≤ (line ++ [character]).length := by
        rw [List.length_append]
        omega
      have longer :
          (character :: text).reverse = (line ++ [character]).drop start := by
        rw [List.drop_append_of_le_length begun, ← isText, List.reverse_cons]
      cases received : lexeme.receive character with
      | extended next =>
          simp only [received]
          refine ⟨column, tokens, ?_⟩
          intro other otherStart otherText isReading
          cases isReading
          exact ⟨inside, longer⟩
      | completed =>
          simp only [received]
          refine ⟨column, ?_, by simp⟩
          have further :
              ({ lexer with column := lexer.column + 1, mode := .idle } :
                Lexer).Transcribes (line ++ [character]) :=
            ⟨column, tokens, by simp⟩
          have recorded := further.emit inside (kind_of_lexeme lexeme)
          rw [← longer, ← column] at recorded
          exact recorded
      | refused =>
          simp only [received]
          exact transcribes.interrupt.start (interrupt_place lexer).2.2 character

theorem foldl_advance
    (transcribes : lexer.Transcribes line)
    (more : List Char) :
    (more.foldl Lexer.advance lexer).Transcribes (line ++ more) := by
  induction more generalizing line lexer with
  | nil =>
      simpa using transcribes
  | cons character rest inductionHypothesis =>
      have later := inductionHypothesis (transcribes.advance character)
      simpa using later

end Transcribes

end Lexer

/-- The tokens of a line are stretches of it. -/
theorem isTextOf_of_mem_lexLine
    {number : Nat}
    {line : List Char}
    {token : Token}
    (member : token ∈ (lexLine number line).tokens) :
    token.IsTextOf line := by
  have nothing : (Lexer.onLine number).Transcribes [] :=
    ⟨rfl, by simp [Lexer.onLine, Lexer.initial],
      by simp [Lexer.onLine, Lexer.initial]⟩
  have ended := (nothing.foldl_advance line).interrupt
  exact ended.tokens token (List.mem_reverse.mp member)

/-- A token of numbered lines is a stretch of the line with its number, unless it
ends the line. -/
theorem isTextOf_of_mem_lexLines
    {number : Nat}
    {line : List Char}
    {later : List (List Char)}
    {token : Token}
    (member : token ∈ (lexLines number line later).tokens)
    (inside : token.kind.endsLine = false) :
    ∃ own index,
      (line :: later)[index]? = some own ∧
        token.line = number + index ∧
        token.IsTextOf own := by
  have ofFirst
      {number : Nat}
      {line : List Char}
      (later : List (List Char))
      (inLine : token ∈ (lexLine number line).tokens) :
      ∃ own index,
        (line :: later)[index]? = some own ∧
          token.line = number + index ∧
          token.IsTextOf own :=
    ⟨line, 0, rfl, (areOnLine_lexLine number line token inLine).1,
      isTextOf_of_mem_lexLine inLine⟩
  induction later generalizing number line with
  | nil =>
      simp only [lexLines, List.mem_append, List.mem_singleton] at member
      rcases member with inLine | isEnd
      · exact ofFirst [] inLine
      · subst token
        cases inside
  | cons next rest inductionHypothesis =>
      simp only [lexLines, List.mem_append, List.mem_cons] at member
      rcases member with inLine | isBreak | isLater
      · exact ofFirst (next :: rest) inLine
      · subst token
        cases inside
      · obtain ⟨own, index, isOwn, onLine, isText⟩ :=
          inductionHypothesis isLater
        exact ⟨own, index + 1, by simpa using isOwn, by omega, isText⟩

/-- The value of a token is the text at its place. -/
theorem textAt?_of_mem_lex
    {text : String}
    {token : Token}
    (member : token ∈ (lex text).tokens)
    (inside : token.kind.endsLine = false) :
    Text.textAt? text token.span = some token.value := by
  rw [lex_eq_lexLines] at member
  obtain ⟨own, index, isOwn, onLine, isText⟩ :=
    isTextOf_of_mem_lexLines member inside
  have isLine : (Text.Lines.ofText text).get? token.line = some own := by
    rw [onLine, Nat.zero_add]
    exact isOwn
  have inLine :
      token.column ≤ token.stopColumn ∧ token.stopColumn ≤ own.length :=
    ⟨isText.ordered, isText.bounded⟩
  simp [Text.textAt?, Token.span, Token.start, Token.stop, isLine, inLine,
    ← isText.value]

/-- A token of a text is a stretch of some line, unless it ends one. -/
theorem exists_isTextOf_of_mem_lex
    {text : String}
    {token : Token}
    (member : token ∈ (lex text).tokens)
    (inside : token.kind.endsLine = false) :
    ∃ line, token.IsTextOf line := by
  rw [lex_eq_lexLines] at member
  obtain ⟨own, -, -, -, isText⟩ := isTextOf_of_mem_lexLines member inside
  exact ⟨own, isText⟩

/-!
## Line after line
-/

/-- Tokens of which the first stands on the line with the given number, and each
further one on the line of the one before it or, behind a line feed, on the next
line. -/
def AreConsecutive : Nat → List Token → Prop
  | _, [] =>
      True
  | number, token :: rest =>
      token.line = number ∧
        AreConsecutive
          (if token.kind = .newline then number + 1 else number) rest

/-- The tokens of a line do not lead away from it. -/
theorem AreOnLine.consecutive_append
    {number : Nat}
    {tokens rest : List Token}
    (onLine : AreOnLine number tokens)
    (consecutive : AreConsecutive number rest) :
    AreConsecutive number (tokens ++ rest) := by
  induction tokens with
  | nil =>
      exact consecutive
  | cons token more inductionHypothesis =>
      obtain ⟨isLine, inside⟩ := onLine token (by simp)
      have notNewline : token.kind ≠ .newline := by
        intro isNewline
        simp [isNewline, TokenKind.endsLine] at inside
      refine ⟨isLine, ?_⟩
      rw [if_neg notNewline]
      exact inductionHypothesis
        fun later member => onLine later (List.mem_cons_of_mem token member)

theorem lexLines_consecutive
    (number : Nat)
    (line : List Char)
    (later : List (List Char)) :
    AreConsecutive number (lexLines number line later).tokens := by
  induction later generalizing number line with
  | nil =>
      exact (areOnLine_lexLine number line).consecutive_append ⟨rfl, trivial⟩
  | cons next rest inductionHypothesis =>
      exact (areOnLine_lexLine number line).consecutive_append
        ⟨rfl, inductionHypothesis (number + 1) next⟩

/-- The tokens of a text come line after line. -/
theorem lex_consecutive (text : String) :
    AreConsecutive 0 (lex text).tokens := by
  rw [lex_eq_lexLines]
  exact lexLines_consecutive 0 _ _

end Script

end ScriptCompletion
