import ScriptCompletion.Proofs.LineLexing

namespace ScriptCompletion.Script

/-!
# Tokens stand one behind the other

A lexer never goes back: a token starts where the lexer stands or, for a lexeme
of several characters, where the lexeme was begun, and in both cases nothing that
was recorded before reaches further.  So every token of a text ends before the
next one starts, and only the end of the text takes no room.
-/

/-- Tokens of one line, latest first, that stand one behind the other and reach
no further than a column. -/
structure AreInOrder
    (column : Nat)
    (tokens : List Token) : Prop where
  separated :
    tokens.Pairwise fun later earlier => earlier.stopColumn ≤ later.column
  filled :
    ∀ token ∈ tokens, token.column < token.stopColumn
  bounded :
    ∀ token ∈ tokens, token.stopColumn ≤ column

namespace AreInOrder

theorem mono
    {column further : Nat}
    {tokens : List Token}
    (inOrder : AreInOrder column tokens)
    (notBefore : column ≤ further) :
    AreInOrder further tokens where
  separated := inOrder.separated
  filled := inOrder.filled
  bounded := fun token member =>
    Nat.le_trans (inOrder.bounded token member) notBefore

/-- A token that starts where the others have ended can be recorded. -/
theorem emit
    {column : Nat}
    {lexer : Lexer}
    (inOrder : AreInOrder column lexer.tokens)
    {start stop : Nat}
    (notBefore : column ≤ start)
    (filled : start < stop)
    (kind : TokenKind)
    (text : List Char) :
    AreInOrder stop (lexer.emit kind text start stop).tokens where
  separated := by
    simp only [Lexer.emit, List.pairwise_cons]
    refine ⟨?_, inOrder.separated⟩
    intro earlier member
    exact Nat.le_trans (inOrder.bounded earlier member) notBefore
  filled := by
    intro token member
    rcases List.mem_cons.mp member with isNew | isEarlier
    · subst token
      exact filled
    · exact inOrder.filled token isEarlier
  bounded := by
    intro token member
    rcases List.mem_cons.mp member with isNew | isEarlier
    · subst token
      exact Nat.le_refl stop
    · have := inOrder.bounded token isEarlier
      omega

end AreInOrder

namespace Lexer

/-- The column that no recorded token reaches behind: the start of the lexeme
that is being read, or else where the lexer stands. -/
def frontier (lexer : Lexer) : Nat :=
  match lexer.mode with
  | .idle | .comment =>
      lexer.column
  | .reading _ start _ =>
      start

/-- What holds of the tokens of a line at every character. -/
structure InOrder (lexer : Lexer) : Prop where
  tokens :
    AreInOrder lexer.frontier lexer.tokens
  begun :
    ∀ {lexeme start text},
      lexer.mode = .reading lexeme start text →
      start < lexer.column

namespace InOrder

/-- A lexer that reads no lexeme has its tokens before its column. -/
theorem of_idle
    {lexer : Lexer}
    (idle : lexer.mode = .idle)
    (tokens : AreInOrder lexer.column lexer.tokens) :
    lexer.InOrder where
  tokens := by
    simpa [frontier, idle] using tokens
  begun := by
    simp [idle]

theorem tokens_of_idle
    {lexer : Lexer}
    (inOrder : lexer.InOrder)
    (idle : lexer.mode = .idle) :
    AreInOrder lexer.column lexer.tokens := by
  simpa [frontier, idle] using inOrder.tokens

/-- Ending the lexeme that is being read keeps the order. -/
theorem interrupt
    {lexer : Lexer}
    (inOrder : lexer.InOrder) :
    lexer.interrupt.InOrder := by
  obtain ⟨-, sameColumn, idle⟩ := interrupt_place lexer
  apply of_idle idle
  rw [sameColumn]
  cases mode : lexer.mode with
  | idle | comment =>
      simpa [Lexer.interrupt, mode, frontier] using inOrder.tokens
  | reading lexeme start text =>
      have before : AreInOrder start lexer.tokens := by
        simpa [frontier, mode] using inOrder.tokens
      have recorded :=
        before.emit (Nat.le_refl start) (inOrder.begun mode) lexeme.kind
          text.reverse
      cases cause : lexeme.interruption <;>
        simpa [Lexer.interrupt, mode, report, cause] using recorded

/-- A character between lexemes keeps the order. -/
theorem start
    {lexer : Lexer}
    (inOrder : lexer.InOrder)
    (idle : lexer.mode = .idle)
    (character : Char) :
    (lexer.start character).InOrder := by
  have before := inOrder.tokens_of_idle idle
  have further := before.mono (Nat.le_succ lexer.column)
  have bracket
      (kind : TokenKind) :
      AreInOrder (lexer.column + 1)
        (lexer.emit kind [character] lexer.column (lexer.column + 1)).tokens :=
    before.emit (Nat.le_refl _) (Nat.lt_succ_self _) kind [character]
  unfold Lexer.start
  split
  · exact of_idle idle further
  · split
    · exact ⟨further, by simp⟩
    · split
      · exact of_idle idle (bracket .opening)
      · split
        · exact of_idle idle (bracket .closing)
        · refine ⟨before, ?_⟩
          intro lexeme start text isReading
          cases isReading
          exact Nat.lt_succ_self _

/-- Every character of a line keeps the order. -/
theorem advance
    {lexer : Lexer}
    (inOrder : lexer.InOrder)
    (character : Char) :
    (lexer.advance character).InOrder := by
  unfold Lexer.advance
  cases mode : lexer.mode with
  | idle =>
      exact inOrder.start mode character
  | comment =>
      have before : AreInOrder lexer.column lexer.tokens := by
        simpa [frontier, mode] using inOrder.tokens
      exact ⟨before.mono (Nat.le_succ lexer.column), by simp⟩
  | reading lexeme start text =>
      have before : AreInOrder start lexer.tokens := by
        simpa [frontier, mode] using inOrder.tokens
      have begun := inOrder.begun mode
      cases received : lexeme.receive character with
      | extended next =>
          simp only [received]
          refine ⟨before, ?_⟩
          intro other otherStart otherText isReading
          cases isReading
          exact Nat.lt_succ_of_lt begun
      | completed =>
          simp only [received]
          exact of_idle rfl
            (before.emit (Nat.le_refl start) (Nat.lt_succ_of_lt begun) _ _)
      | refused =>
          simp only [received]
          exact inOrder.interrupt.start (interrupt_place lexer).2.2 character

theorem foldl_advance
    {lexer : Lexer}
    (inOrder : lexer.InOrder)
    (line : List Char) :
    (line.foldl Lexer.advance lexer).InOrder := by
  induction line generalizing lexer with
  | nil =>
      exact inOrder
  | cons character rest inductionHypothesis =>
      exact inductionHypothesis (inOrder.advance character)

end InOrder

end Lexer

/-- The tokens of a line stand one behind the other inside it. -/
theorem lexLine_inOrder
    (number : Nat)
    (line : List Char) :
    AreInOrder line.length (lexLine number line).tokens.reverse := by
  have nothing : (Lexer.onLine number).InOrder := by
    apply Lexer.InOrder.of_idle rfl
    exact ⟨.nil, by simp [Lexer.onLine, Lexer.initial],
      by simp [Lexer.onLine, Lexer.initial]⟩
  have ended := (nothing.foldl_advance line).interrupt
  obtain ⟨-, sameColumn, idle⟩ :=
    Lexer.interrupt_place (line.foldl Lexer.advance (.onLine number))
  have tokens := ended.tokens_of_idle idle
  rw [sameColumn, (Lexer.foldl_advance_place (.onLine number) line).2] at tokens
  simpa [lexLine, Lexer.onLine, Lexer.initial] using tokens

/-- Whether the first token ends before the second one starts. -/
def Token.IsBefore
    (first second : Token) : Prop :=
  first.stop ≤ second.start

theorem Token.isBefore_of_line_lt
    {first second : Token}
    (earlier : first.line < second.line) :
    first.IsBefore second :=
  Position.le_iff.mpr (.inl earlier)

theorem Token.isBefore_of_column_le
    {first second : Token}
    (sameLine : first.line = second.line)
    (inTime : first.stopColumn ≤ second.column) :
    first.IsBefore second :=
  Position.le_iff.mpr (.inr ⟨sameLine, inTime⟩)

theorem lexLine_separated
    (number : Nat)
    (line : List Char) :
    (lexLine number line).tokens.Pairwise Token.IsBefore := by
  have separated := (lexLine_inOrder number line).separated
  rw [List.pairwise_reverse] at separated
  refine separated.imp_of_mem ?_
  intro first second isFirst isSecond inTime
  have firstLine := (areOnLine_lexLine number line first isFirst).1
  have secondLine := (areOnLine_lexLine number line second isSecond).1
  exact Token.isBefore_of_column_le (firstLine.trans secondLine.symm) inTime

/-- A token of a line stands before whatever starts at the end of the line. -/
theorem isBefore_of_mem_lexLine
    {number : Nat}
    {line : List Char}
    {token : Token}
    (member : token ∈ (lexLine number line).tokens)
    {lineEnd : Token}
    (sameLine : lineEnd.line = number)
    (atEnd : lineEnd.column = line.length) :
    token.IsBefore lineEnd := by
  have onLine := (areOnLine_lexLine number line token member).1
  have bounded :=
    (lexLine_inOrder number line).bounded token (List.mem_reverse.mpr member)
  exact Token.isBefore_of_column_le (onLine.trans sameLine.symm)
    (atEnd ▸ bounded)

/-- The tokens of numbered lines stand one behind the other. -/
theorem lexLines_separated
    (number : Nat)
    (line : List Char)
    (later : List (List Char)) :
    (lexLines number line later).tokens.Pairwise Token.IsBefore := by
  induction later generalizing number line with
  | nil =>
      simp only [lexLines]
      rw [List.pairwise_append]
      refine ⟨lexLine_separated number line, by simp, ?_⟩
      intro first isFirst second isEnd
      rw [List.mem_singleton] at isEnd
      subst second
      exact isBefore_of_mem_lexLine isFirst rfl rfl
  | cons next rest inductionHypothesis =>
      simp only [lexLines]
      rw [List.pairwise_append, List.pairwise_cons]
      refine ⟨lexLine_separated number line, ⟨?_, inductionHypothesis _ _⟩, ?_⟩
      · intro second isLater
        exact Token.isBefore_of_line_lt (le_line_of_mem_lexLines isLater)
      · intro first isFirst second isSecond
        rcases List.mem_cons.mp isSecond with isBreak | isLater
        · subst second
          exact isBefore_of_mem_lexLine isFirst rfl rfl
        · have firstLine := (areOnLine_lexLine number line first isFirst).1
          have secondLine := le_line_of_mem_lexLines isLater
          exact Token.isBefore_of_line_lt (by omega)

/-- A token of numbered lines that does not end its line takes room. -/
theorem column_lt_of_mem_lexLines
    {number : Nat}
    {line : List Char}
    {later : List (List Char)}
    {token : Token}
    (member : token ∈ (lexLines number line later).tokens)
    (inside : token.kind.endsLine = false) :
    token.column < token.stopColumn := by
  have ofLine
      {number : Nat}
      {line : List Char}
      (inLine : token ∈ (lexLine number line).tokens) :
      token.column < token.stopColumn :=
    (lexLine_inOrder number line).filled token (List.mem_reverse.mpr inLine)
  induction later generalizing number line with
  | nil =>
      simp only [lexLines, List.mem_append, List.mem_singleton] at member
      rcases member with inLine | isEnd
      · exact ofLine inLine
      · subst token
        cases inside
  | cons next rest inductionHypothesis =>
      simp only [lexLines, List.mem_append, List.mem_cons] at member
      rcases member with inLine | isBreak | isLater
      · exact ofLine inLine
      · subst token
        cases inside
      · exact inductionHypothesis isLater

/-- The tokens of a text that do not end a line, ordered by where they end. -/
theorem lex_stops_increasing (text : String) :
    (((lex text).tokens.filter fun token => !token.kind.endsLine).map
      Token.stop).Pairwise (· < ·) := by
  rw [List.pairwise_map, lex_eq_lexLines]
  refine ((lexLines_separated 0 _ _).filter _).imp_of_mem ?_
  intro first second _ isSecond before
  obtain ⟨member, inside⟩ := List.mem_filter.mp isSecond
  have filled : second.column < second.stopColumn :=
    column_lt_of_mem_lexLines member (by simpa using inside)
  rcases Position.le_iff.mp before with earlierLine | ⟨sameLine, inTime⟩
  · exact Position.lt_iff.mpr (.inl earlierLine)
  · exact Position.lt_iff.mpr
      (.inr ⟨sameLine, Nat.lt_of_le_of_lt inTime filled⟩)

end ScriptCompletion.Script
