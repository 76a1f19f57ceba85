import ScriptCompletion.Script.Lexer
import ScriptCompletion.Text.Lines

namespace ScriptCompletion

/-!
# Lexing line by line

A text is the run of its lines with line feeds between them.  A line feed ends
whatever is being read, and what has been recorded before is never touched
again.  So the tokens and problems of a text are those of its lines, each lexed
on its own, with the line breaks between them and the end of the text behind
them.
-/

namespace Text.Lines

/-- The lines with line feeds between them are the text. -/
theorem join_ofChars (characters : List Char) :
    (ofChars characters).first ++
        (ofChars characters).later.flatMap (fun line => '\n' :: line) =
      characters := by
  induction characters with
  | nil =>
      rfl
  | cons character rest inductionHypothesis =>
      have unfolded :
          ofChars (character :: rest) = push character (ofChars rest) :=
        rfl
      by_cases isBreak : character = '\n'
      · subst character
        simpa [unfolded, push] using inductionHypothesis
      · simpa [unfolded, push, isBreak] using inductionHypothesis

/-- No line holds a line feed. -/
theorem newline_not_mem
    {characters line : List Char}
    (member : line ∈ (ofChars characters).toList) :
    '\n' ∉ line := by
  induction characters generalizing line with
  | nil =>
      simp [ofChars, toList] at member
      simp [member]
  | cons character rest inductionHypothesis =>
      have unfolded :
          ofChars (character :: rest) = push character (ofChars rest) :=
        rfl
      rw [unfolded] at member
      by_cases isBreak : character = '\n'
      · simp only [push, isBreak, ↓reduceIte, toList, List.mem_cons] at member
        rcases member with isEmpty | isEarlier
        · simp [isEmpty]
        · exact inductionHypothesis (by simpa [toList] using isEarlier)
      · simp only [push, isBreak, ↓reduceIte, toList, List.mem_cons] at member
        rcases member with isFirst | isLater
        · subst line
          have notInRest : '\n' ∉ (ofChars rest).first :=
            inductionHypothesis (by simp [toList])
          simp [notInRest, Ne.symm isBreak]
        · exact inductionHypothesis (by simp [toList, isLater])

end Text.Lines

namespace Script

namespace Lexer

/-- The lexer at the start of a line, before anything is recorded. -/
def onLine (number : Nat) : Lexer :=
  { initial with line := number }

/-- The lexer with the records of an earlier one below its own. -/
def behind
    (lexer : Lexer)
    (earlier : Lexer) : Lexer :=
  { lexer with
    tokens := lexer.tokens ++ earlier.tokens
    problems := lexer.problems ++ earlier.problems }

theorem emit_behind
    (lexer earlier : Lexer)
    (kind : TokenKind)
    (text : List Char)
    (start stop : Nat) :
    (lexer.behind earlier).emit kind text start stop =
      (lexer.emit kind text start stop).behind earlier :=
  rfl

theorem report_behind
    (lexer earlier : Lexer)
    (cause : Option Cause)
    (column : Nat) :
    (lexer.behind earlier).report cause column =
      (lexer.report cause column).behind earlier := by
  cases cause <;> rfl

theorem interrupt_behind (lexer earlier : Lexer) :
    (lexer.behind earlier).interrupt = lexer.interrupt.behind earlier := by
  have sameMode : (lexer.behind earlier).mode = lexer.mode := rfl
  have sameColumn : (lexer.behind earlier).column = lexer.column := rfl
  unfold interrupt
  rw [sameMode, sameColumn]
  cases mode : lexer.mode with
  | idle | comment =>
      rfl
  | reading lexeme start text =>
      simp only [emit_behind, report_behind]
      rfl

theorem start_behind
    (lexer earlier : Lexer)
    (character : Char) :
    (lexer.behind earlier).start character =
      (lexer.start character).behind earlier := by
  unfold start
  simp only [apply_ite (fun lexer : Lexer => lexer.behind earlier)]
  rfl

/-- Reading a character touches nothing that was recorded before. -/
theorem advance_behind
    (lexer earlier : Lexer)
    (character : Char) :
    (lexer.behind earlier).advance character =
      (lexer.advance character).behind earlier := by
  have sameMode : (lexer.behind earlier).mode = lexer.mode := rfl
  unfold advance
  rw [sameMode]
  cases mode : lexer.mode with
  | idle =>
      exact start_behind lexer earlier character
  | comment =>
      rfl
  | reading lexeme start text =>
      cases received : lexeme.receive character with
      | extended next =>
          simp only [received]
          rfl
      | completed =>
          simp only [received]
          rfl
      | refused =>
          simp only [received, interrupt_behind, start_behind]

theorem foldl_advance_behind
    (lexer earlier : Lexer)
    (line : List Char) :
    line.foldl advance (lexer.behind earlier) =
      (line.foldl advance lexer).behind earlier := by
  induction line generalizing lexer with
  | nil =>
      rfl
  | cons character rest inductionHypothesis =>
      rw [List.foldl_cons, advance_behind, inductionHypothesis,
        List.foldl_cons]

/-- Where the lexer stands after ending a lexeme. -/
theorem interrupt_place (lexer : Lexer) :
    lexer.interrupt.line = lexer.line ∧
      lexer.interrupt.column = lexer.column ∧
      lexer.interrupt.mode = .idle := by
  unfold interrupt
  cases mode : lexer.mode with
  | idle | comment =>
      exact ⟨rfl, rfl, rfl⟩
  | reading lexeme start text =>
      cases cause : lexeme.interruption <;>
        simp [report, cause, emit]

theorem start_place
    (lexer : Lexer)
    (character : Char) :
    (lexer.start character).line = lexer.line ∧
      (lexer.start character).column = lexer.column + 1 := by
  unfold start
  simp only [apply_ite Lexer.line, apply_ite Lexer.column, emit, ite_self,
    and_self]

/-- A character is one column of the current line. -/
theorem advance_place
    (lexer : Lexer)
    (character : Char) :
    (lexer.advance character).line = lexer.line ∧
      (lexer.advance character).column = lexer.column + 1 := by
  unfold advance
  cases mode : lexer.mode with
  | idle =>
      exact start_place lexer character
  | comment =>
      exact ⟨rfl, rfl⟩
  | reading lexeme start text =>
      cases received : lexeme.receive character with
      | extended next =>
          simp [received]
      | completed =>
          simp [received, emit]
      | refused =>
          obtain ⟨sameLine, sameColumn, -⟩ := interrupt_place lexer
          obtain ⟨startLine, startColumn⟩ :=
            start_place lexer.interrupt character
          simp only [received]
          exact ⟨startLine.trans sameLine, by rw [startColumn, sameColumn]⟩

theorem foldl_advance_place
    (lexer : Lexer)
    (line : List Char) :
    (line.foldl advance lexer).line = lexer.line ∧
      (line.foldl advance lexer).column = lexer.column + line.length := by
  induction line generalizing lexer with
  | nil =>
      exact ⟨rfl, rfl⟩
  | cons character rest inductionHypothesis =>
      obtain ⟨sameLine, sameColumn⟩ :=
        inductionHypothesis (lexer.advance character)
      obtain ⟨oneLine, oneColumn⟩ := advance_place lexer character
      refine ⟨sameLine.trans oneLine, ?_⟩
      rw [List.foldl_cons, sameColumn, oneColumn, List.length_cons]
      omega

/-- Away from line feeds, reading a character is going on in the line. -/
theorem foldl_step_eq_advance
    {line : List Char}
    (noBreak : '\n' ∉ line)
    (lexer : Lexer) :
    line.foldl step lexer = line.foldl advance lexer := by
  induction line generalizing lexer with
  | nil =>
      rfl
  | cons character rest inductionHypothesis =>
      rw [List.mem_cons, not_or] at noBreak
      have isNotBreak : character ≠ '\n' := Ne.symm noBreak.1
      rw [List.foldl_cons, List.foldl_cons, inductionHypothesis noBreak.2]
      simp [step, isNotBreak]

end Lexer

/-- The tokens of one line: they stand on it and do not end it. -/
def AreOnLine
    (number : Nat)
    (tokens : List Token) : Prop :=
  ∀ token ∈ tokens, token.line = number ∧ token.kind.endsLine = false

theorem AreOnLine.ne_endOfText
    {number : Nat}
    {tokens : List Token}
    (onLine : AreOnLine number tokens) :
    ∀ token ∈ tokens, token.kind ≠ .endOfText := by
  intro token member isEnd
  have inside := (onLine token member).2
  rw [isEnd] at inside
  cases inside

namespace Lexer

theorem areOnLine_emit
    {lexer : Lexer}
    (recorded : AreOnLine lexer.line lexer.tokens)
    {kind : TokenKind}
    (inside : kind.endsLine = false)
    (text : List Char)
    (start stop : Nat) :
    AreOnLine lexer.line (lexer.emit kind text start stop).tokens := by
  intro token member
  rcases List.mem_cons.mp member with isNew | isOld
  · subst token
    exact ⟨rfl, inside⟩
  · exact recorded token isOld

theorem endsLine_kind (lexeme : Lexeme) :
    lexeme.kind.endsLine = false := by
  cases lexeme <;> rfl

theorem areOnLine_interrupt
    {lexer : Lexer}
    (recorded : AreOnLine lexer.line lexer.tokens) :
    AreOnLine lexer.line lexer.interrupt.tokens := by
  unfold interrupt
  cases mode : lexer.mode with
  | idle | comment =>
      exact recorded
  | reading lexeme start text =>
      have emitted :=
        areOnLine_emit recorded (endsLine_kind lexeme) text.reverse start
          lexer.column
      cases cause : lexeme.interruption <;>
        simpa only [report, cause] using emitted

theorem areOnLine_start
    {lexer : Lexer}
    (recorded : AreOnLine lexer.line lexer.tokens)
    (character : Char) :
    AreOnLine lexer.line (lexer.start character).tokens := by
  have bracket
      {kind : TokenKind}
      (inside : kind.endsLine = false) :
      AreOnLine lexer.line
        (lexer.emit kind [character] lexer.column (lexer.column + 1)).tokens :=
    areOnLine_emit recorded inside [character] lexer.column (lexer.column + 1)
  unfold start
  split
  · exact recorded
  · split
    · exact recorded
    · split
      · exact bracket rfl
      · split
        · exact bracket rfl
        · exact recorded

/-- The tokens of a line are recorded with its number. -/
theorem areOnLine_advance
    {lexer : Lexer}
    (recorded : AreOnLine lexer.line lexer.tokens)
    (character : Char) :
    AreOnLine lexer.line (lexer.advance character).tokens := by
  unfold advance
  cases mode : lexer.mode with
  | idle =>
      exact areOnLine_start recorded character
  | comment =>
      exact recorded
  | reading lexeme start text =>
      cases received : lexeme.receive character with
      | extended next =>
          simpa only [received] using recorded
      | completed =>
          simp only [received]
          exact areOnLine_emit recorded (endsLine_kind lexeme) _ start _
      | refused =>
          have sameLine := (interrupt_place lexer).1
          have interrupted := areOnLine_interrupt recorded
          rw [← sameLine] at interrupted
          have started := areOnLine_start interrupted character
          rw [sameLine] at started
          simpa only [received] using started

theorem areOnLine_foldl_advance
    {lexer : Lexer}
    (recorded : AreOnLine lexer.line lexer.tokens)
    (line : List Char) :
    AreOnLine lexer.line (line.foldl advance lexer).tokens := by
  induction line generalizing lexer with
  | nil =>
      exact recorded
  | cons character rest inductionHypothesis =>
      have sameLine := (advance_place lexer character).1
      have advanced := areOnLine_advance recorded character
      rw [← sameLine] at advanced ⊢
      exact inductionHypothesis advanced

end Lexer

/-- What a line is read as, without the end of the line. -/
def lexLine
    (number : Nat)
    (line : List Char) : Lexing :=
  let lexer := (line.foldl Lexer.advance (.onLine number)).interrupt
  { tokens := lexer.tokens.reverse
    problems := lexer.problems.reverse }

theorem areOnLine_lexLine
    (number : Nat)
    (line : List Char) :
    AreOnLine number (lexLine number line).tokens := by
  have nothing : AreOnLine number (Lexer.onLine number).tokens := by
    intro token member
    cases member
  have read := Lexer.areOnLine_foldl_advance nothing line
  rw [← (Lexer.foldl_advance_place (.onLine number) line).1] at read
  have ended := Lexer.areOnLine_interrupt read
  rw [(Lexer.foldl_advance_place (.onLine number) line).1] at ended
  intro token member
  exact ended token (List.mem_reverse.mp member)

/-- The line feed behind a line. -/
def lineBreak
    (number : Nat)
    (line : List Char) : Token where
  kind := .newline
  value := "\n"
  line := number
  column := line.length
  stopColumn := line.length + 1

/-- The end of the text behind its last line. -/
def textEnd
    (number : Nat)
    (line : List Char) : Token where
  kind := .endOfText
  value := ""
  line := number
  column := line.length
  stopColumn := line.length

/-- What numbered lines are read as. -/
def lexLines
    (number : Nat)
    (line : List Char)
    (later : List (List Char)) : Lexing :=
  match later with
  | [] =>
      { tokens := (lexLine number line).tokens ++ [textEnd number line]
        problems := (lexLine number line).problems }
  | next :: rest =>
      let behind := lexLines (number + 1) next rest
      { tokens :=
          (lexLine number line).tokens ++ lineBreak number line :: behind.tokens
        problems := (lexLine number line).problems ++ behind.problems }

namespace Lexer

/-- The lexer at the start of a line is the fresh one behind its records. -/
theorem onLine_behind
    {lexer : Lexer}
    (atStart : lexer.column = 0)
    (idle : lexer.mode = .idle) :
    (onLine lexer.line).behind lexer = lexer := by
  cases lexer
  subst atStart
  subst idle
  rfl

/-- At the end of a line its tokens and problems have been recorded. -/
theorem interrupt_foldl_advance
    {lexer : Lexer}
    (atStart : lexer.column = 0)
    (idle : lexer.mode = .idle)
    (line : List Char) :
    (line.foldl advance lexer).interrupt =
      { line := lexer.line
        column := line.length
        mode := .idle
        tokens :=
          (lexLine lexer.line line).tokens.reverse ++ lexer.tokens
        problems :=
          (lexLine lexer.line line).problems.reverse ++ lexer.problems } := by
  have framed :
      (line.foldl advance lexer).interrupt =
        (line.foldl advance (onLine lexer.line)).interrupt.behind lexer := by
    rw [← interrupt_behind, ← foldl_advance_behind,
      onLine_behind atStart idle]
  obtain ⟨sameLine, sameColumn⟩ :=
    foldl_advance_place (onLine lexer.line) line
  obtain ⟨lineKept, columnKept, isIdle⟩ :=
    interrupt_place (line.foldl advance (onLine lexer.line))
  have startColumn : (onLine lexer.line).column = 0 := rfl
  rw [framed]
  simp only [behind, lexLine, List.reverse_reverse, isIdle, lineKept,
    sameLine, columnKept, sameColumn, startColumn, Nat.zero_add]
  rfl

/-- The lexer reads numbered lines one after another. -/
theorem finish_foldl_lines
    {lexer : Lexer}
    (atStart : lexer.column = 0)
    (idle : lexer.mode = .idle)
    {line : List Char}
    {later : List (List Char)}
    (noBreak : ∀ own ∈ line :: later, '\n' ∉ own) :
    let read :=
      ((line ++ later.flatMap fun next => '\n' :: next).foldl step lexer).finish
    read.tokens.reverse =
        lexer.tokens.reverse ++ (lexLines lexer.line line later).tokens ∧
      read.problems.reverse =
        lexer.problems.reverse ++ (lexLines lexer.line line later).problems := by
  induction later generalizing lexer line with
  | nil =>
      have read :
          line.foldl step lexer = line.foldl advance lexer :=
        foldl_step_eq_advance (noBreak line (by simp)) lexer
      simp [read, finish, interrupt_foldl_advance atStart idle, emit, lexLines,
        textEnd]
  | cons next rest inductionHypothesis =>
      have read :
          line.foldl step lexer = line.foldl advance lexer :=
        foldl_step_eq_advance (noBreak line (by simp)) lexer
      have broken :
          (line.foldl advance lexer).breakLine =
            { line := lexer.line + 1
              column := 0
              mode := .idle
              tokens :=
                lineBreak lexer.line line ::
                  ((lexLine lexer.line line).tokens.reverse ++ lexer.tokens)
              problems :=
                (lexLine lexer.line line).problems.reverse ++
                  lexer.problems } := by
        simp only [breakLine, interrupt_foldl_advance atStart idle]
        rfl
      have noLaterBreak : ∀ own ∈ next :: rest, '\n' ∉ own :=
        fun own member => noBreak own (List.mem_cons_of_mem line member)
      obtain ⟨tokens, problems⟩ :=
        inductionHypothesis
          (show (line.foldl advance lexer).breakLine.column = 0 by rw [broken])
          (show (line.foldl advance lexer).breakLine.mode = .idle by
            rw [broken])
          noLaterBreak
      have split :
          (line ++ (next :: rest).flatMap fun own => '\n' :: own).foldl step
              lexer =
            (next ++ rest.flatMap fun own => '\n' :: own).foldl step
              (line.foldl advance lexer).breakLine := by
        simp [read, step]
      simp only [split]
      rw [tokens, problems, broken]
      simp [lexLines]

end Lexer

/-- A text is read line by line. -/
theorem lex_eq_lexLines (text : String) :
    lex text =
      lexLines 0 (Text.Lines.ofText text).first
        (Text.Lines.ofText text).later := by
  have noBreak :
      ∀ own ∈
          (Text.Lines.ofText text).first :: (Text.Lines.ofText text).later,
        '\n' ∉ own :=
    fun own member => Text.Lines.newline_not_mem member
  have atStart : Lexer.initial.column = 0 := rfl
  have idle : Lexer.initial.mode = .idle := rfl
  obtain ⟨tokens, problems⟩ :=
    Lexer.finish_foldl_lines atStart idle noBreak
  have joined :
      (Text.Lines.ofText text).first ++
          (Text.Lines.ofText text).later.flatMap (fun line => '\n' :: line) =
        text.toList :=
    Text.Lines.join_ofChars text.toList
  rw [joined] at tokens problems
  simp only [lex, tokens, problems]
  rfl

/-- No token of numbered lines stands on an earlier line. -/
theorem le_line_of_mem_lexLines
    {number : Nat}
    {line : List Char}
    {later : List (List Char)}
    {token : Token}
    (member : token ∈ (lexLines number line later).tokens) :
    number ≤ token.line := by
  induction later generalizing number line with
  | nil =>
      simp only [lexLines, List.mem_append, List.mem_singleton] at member
      rcases member with inLine | isEnd
      · exact Nat.le_of_eq (areOnLine_lexLine number line token inLine).1.symm
      · subst token
        exact Nat.le_refl number
  | cons next rest inductionHypothesis =>
      simp only [lexLines, List.mem_append, List.mem_cons] at member
      rcases member with inLine | isBreak | isLater
      · exact Nat.le_of_eq (areOnLine_lexLine number line token inLine).1.symm
      · subst token
        exact Nat.le_refl number
      · exact Nat.le_of_succ_le (inductionHypothesis isLater)

/-- The tokens of numbered lines come line by line. -/
theorem lexLines_sorted
    (number : Nat)
    (line : List Char)
    (later : List (List Char)) :
    (lexLines number line later).tokens.Pairwise
      fun first second => first.line ≤ second.line := by
  have onOneLine
      (number : Nat)
      (line : List Char) :
      (lexLine number line).tokens.Pairwise
        fun first second => first.line ≤ second.line := by
    apply List.pairwise_of_forall_mem_list
    intro first isFirst second isSecond
    have firstLine := (areOnLine_lexLine number line first isFirst).1
    have secondLine := (areOnLine_lexLine number line second isSecond).1
    exact Nat.le_of_eq (firstLine.trans secondLine.symm)
  induction later generalizing number line with
  | nil =>
      simp only [lexLines]
      rw [List.pairwise_append]
      refine ⟨onOneLine number line, by simp, ?_⟩
      intro first isFirst second isEnd
      rw [(areOnLine_lexLine number line first isFirst).1]
      rw [List.mem_singleton] at isEnd
      subst second
      exact Nat.le_refl number
  | cons next rest inductionHypothesis =>
      simp only [lexLines]
      rw [List.pairwise_append, List.pairwise_cons]
      refine ⟨onOneLine number line, ⟨?_, inductionHypothesis _ _⟩, ?_⟩
      · intro second isLater
        exact Nat.le_of_succ_le (le_line_of_mem_lexLines isLater)
      · intro first isFirst second isSecond
        rw [(areOnLine_lexLine number line first isFirst).1]
        rcases List.mem_cons.mp isSecond with isBreak | isLater
        · subst second
          exact Nat.le_refl number
        · exact Nat.le_of_succ_le (le_line_of_mem_lexLines isLater)

end Script

end ScriptCompletion
