import ScriptCompletion.Proofs.EarlyLines
import ScriptCompletion.Proofs.LineShift
import ScriptCompletion.Proofs.ProblemPlaces
import ScriptCompletion.Proofs.ScriptGrammar

namespace ScriptCompletion

/-!
# Scripts one below the other

Behind the last line of a script nothing is left of it but its open blocks: a line
feed ends every lexeme and every command, whatever is wrong with them.  So a script
below another one that leaves no block open is read as it is on its own, only
further down, and so are its problems.
-/

namespace Text.Lines

/-- A line feed ends the last line of the first text. -/
theorem ofChars_append
    (first second : List Char) :
    ofChars (first ++ '\n' :: second) =
      { first := (ofChars first).first
        later := (ofChars first).later ++ (ofChars second).toList } := by
  induction first with
  | nil =>
      rfl
  | cons character rest inductionHypothesis =>
      have unfolded (characters : List Char) :
          ofChars (character :: characters) =
            push character (ofChars characters) :=
        rfl
      rw [List.cons_append, unfolded, inductionHypothesis, unfolded]
      by_cases isBreak : character = '\n' <;>
        simp [push, isBreak]

theorem ofText_append (first second : String) :
    ofText (first ++ "\n" ++ second) =
      { first := (ofText first).first
        later := (ofText first).later ++ (ofText second).toList } := by
  have characters :
      (first ++ "\n" ++ second).toList =
        first.toList ++ '\n' :: second.toList := by
    simp
  rw [ofText, characters, ofChars_append]
  rfl

end Text.Lines

namespace Script

/-- Further lines take the place of the end of the text. -/
theorem lexLines_append
    (number : Nat)
    (line : List Char)
    (later : List (List Char))
    (next : List Char)
    (rest : List (List Char)) :
    ∃ front,
      (lexLines number line later).tokens =
          front ++ [textEnd (number + later.length) (later.getLastD line)] ∧
        (lexLines number line (later ++ next :: rest)).tokens =
          front ++
            lineBreak (number + later.length) (later.getLastD line) ::
              (lexLines (number + (later.length + 1)) next rest).tokens := by
  induction later generalizing number line with
  | nil =>
      exact ⟨(lexLine number line).tokens, rfl, rfl⟩
  | cons second more inductionHypothesis =>
      obtain ⟨front, shape, appended⟩ :=
        inductionHypothesis (number + 1) second
      have lastNumber :
          number + 1 + more.length = number + (second :: more).length := by
        simp only [List.length_cons]
        omega
      have sameNumber :
          number + 1 + (more.length + 1) =
            number + ((second :: more).length + 1) := by
        simp only [List.length_cons]
        omega
      rw [lastNumber] at shape appended
      rw [sameNumber] at appended
      refine
        ⟨(lexLine number line).tokens ++ lineBreak number line :: front, ?_, ?_⟩
      · simp only [lexLines, shape, List.getLastD_cons, List.append_assoc,
          List.cons_append]
      · simp only [lexLines, appended, List.getLastD_cons, List.append_assoc,
          List.cons_append]

theorem problems_lexLines_append
    (number : Nat)
    (line : List Char)
    (later : List (List Char))
    (next : List Char)
    (rest : List (List Char)) :
    (lexLines number line (later ++ next :: rest)).problems =
      (lexLines number line later).problems ++
        (lexLines (number + (later.length + 1)) next rest).problems := by
  induction later generalizing number line with
  | nil =>
      rfl
  | cons second more inductionHypothesis =>
      have sameNumber :
          number + 1 + (more.length + 1) =
            number + ((second :: more).length + 1) := by
        simp only [List.length_cons]
        omega
      have later := inductionHypothesis (number + 1) second
      rw [sameNumber] at later
      simp [lexLines, later]

/-- Below a text, the line feed behind its last line takes the place of its end. -/
theorem tokens_lex_append (first second : String) :
    let above := Text.Lines.ofText first
    let last := above.later.getLastD above.first
    ∃ front,
      (lex first).tokens = front ++ [textEnd above.later.length last] ∧
        (lex (first ++ "\n" ++ second)).tokens =
          front ++
            lineBreak above.later.length last ::
              (lex second).tokens.map (Token.shift above.toList.length) := by
  intro above last
  obtain ⟨front, shape, appended⟩ :=
    lexLines_append 0 above.first above.later (Text.Lines.ofText second).first
      (Text.Lines.ofText second).later
  rw [Nat.zero_add] at shape
  rw [lexLines_shift, Nat.zero_add] at appended
  refine ⟨front, ?_, ?_⟩
  · rw [lex_eq_lexLines]
    exact shape
  · rw [lex_eq_lexLines, Text.Lines.ofText_append, lex_eq_lexLines second]
    exact appended

/-- The tokens of a text with another one below it. -/
theorem lex_append (first second : String) :
    let lines := (Text.Lines.ofText first).toList.length
    ∃ front lineEnd lastEnd,
      lineEnd.kind = .newline ∧
        lastEnd.kind = .endOfText ∧
        (lex first).tokens = front ++ [lastEnd] ∧
        (lex (first ++ "\n" ++ second)).tokens =
          front ++ lineEnd :: (lex second).tokens.map (Token.shift lines) := by
  obtain ⟨front, shape, appended⟩ := tokens_lex_append first second
  refine ⟨front, _, _, ?_, ?_, shape, appended⟩
  · rfl
  · rfl

theorem problems_lex_append (first second : String) :
    let lines := (Text.Lines.ofText first).toList.length
    (lex (first ++ "\n" ++ second)).problems =
      (lex first).problems ++
        (lex second).problems.map (Problem.shift lines) := by
  have appended :=
    problems_lexLines_append 0 (Text.Lines.ofText first).first
      (Text.Lines.ofText first).later (Text.Lines.ofText second).first
      (Text.Lines.ofText second).later
  rw [lexLines_shift] at appended
  rw [lex_eq_lexLines, Text.Lines.ofText_append, lex_eq_lexLines first,
    lex_eq_lexLines second]
  exact appended

/-- Whether no block was left without its closing parenthesis. -/
def AreClosed (commands : List Command) : Prop :=
  ∀ command ∈ flatten commands,
    command.block.all Block.closed = true

instance (commands : List Command) : Decidable (AreClosed commands) :=
  inferInstanceAs (Decidable
    (∀ command ∈ flatten commands, command.block.all Block.closed = true))

namespace Parser

/-- A block that is open at the end of the text is not closed. -/
theorem not_areClosed_leaveBlocks
    (parser : Parser)
    (stop : Position)
    (block : OpenBlock)
    (outer : List OpenBlock) :
    ¬ AreClosed
        (parser.leaveBlocks stop (block :: outer)).commands.reverse := by
  induction outer generalizing parser block with
  | nil =>
      intro closed
      have isClosed :=
        closed _ (mem_flatten_of_mem (List.mem_reverse.mpr List.mem_cons_self))
      cases isClosed
  | cons next rest inductionHypothesis =>
      exact inductionHypothesis _ next

/-- The parser behind a text that leaves no block open begins afresh. -/
theorem initial_behind
    {parser : Parser}
    (idle : parser.mode = .idle)
    (noneOpen : parser.blocks = [])
    (lines : Nat) :
    initial.behind parser lines = parser := by
  cases parser
  subst idle
  subst noneOpen
  rfl

/-- Where no block is left open, the end of the text adds nothing. -/
theorem finish_step_endOfText
    {parser : Parser}
    (going : parser.mode ≠ .ended)
    {lineEnd lastEnd : Token}
    (isBreak : lineEnd.kind = .newline)
    (isEnd : lastEnd.kind = .endOfText)
    {stop : Position}
    (closed :
      AreClosed ((parser.step lastEnd).finish stop).commands.reverse) :
    (parser.step lineEnd).blocks = [] ∧
      (parser.step lastEnd).finish stop =
        { parser.step lineEnd with mode := .ended } := by
  have finished :
      (parser.step lastEnd).finish stop =
        ({ parser.step lineEnd with mode := .ended } : Parser).leaveBlocks stop
          (parser.step lineEnd).blocks := by
    rw [step_endOfText going isBreak isEnd]
    rfl
  cases opened : (parser.step lineEnd).blocks with
  | nil =>
      rw [opened] at finished
      refine ⟨rfl, ?_⟩
      rw [finished, leaveBlocks]
  | cons block outer =>
      rw [finished, opened] at closed
      exact absurd closed (not_areClosed_leaveBlocks _ stop block outer)

end Parser

theorem lastPosition_shift
    (before : List Token)
    {tokens : List Token}
    (notEmpty : tokens ≠ [])
    (lines : Nat) :
    lastPosition (before ++ tokens.map (Token.shift lines)) =
      (lastPosition tokens).shift lines := by
  obtain ⟨front, last, rfl⟩ := List.eq_nil_or_concat tokens |>.resolve_left notEmpty
  simp [lastPosition]
  rfl

/-- Tokens behind a text that leaves no block open are parsed as on their own. -/
theorem parseTokens_append
    {front tokens : List Token}
    {lineEnd lastEnd : Token}
    (notEnd : ∀ token ∈ front, token.kind ≠ .endOfText)
    (isBreak : lineEnd.kind = .newline)
    (isEnd : lastEnd.kind = .endOfText)
    (closed : AreClosed (parseTokens (front ++ [lastEnd])).commands)
    (notEmpty : tokens ≠ [])
    (lines : Nat) :
    let above := parseTokens (front ++ [lastEnd])
    let below := parseTokens tokens
    let whole :=
      parseTokens (front ++ lineEnd :: tokens.map (Token.shift lines))
    whole.commands =
        above.commands ++ below.commands.map (Command.shift lines) ∧
      whole.problems =
        above.problems ++ below.problems.map (Problem.shift lines) := by
  have going : (front.foldl Parser.step .initial).mode ≠ .ended :=
    Parser.mode_foldl_ne_ended (by simp [Parser.initial]) notEnd
  simp only [parseTokens, List.foldl_append, List.foldl_cons,
    List.foldl_nil] at closed
  obtain ⟨noneOpen, finished⟩ :=
    Parser.finish_step_endOfText going isBreak isEnd closed
  have idle := Parser.mode_step_newline going isBreak
  -- Behind the line feed the parser is the initial one above what it has recorded.
  generalize read :
    (front.foldl Parser.step .initial).step lineEnd = parser at *
  have aboveParsed :
      parseTokens (front ++ [lastEnd]) =
        { commands := parser.commands.reverse
          problems := parser.problems.reverse } := by
    simp only [parseTokens, List.foldl_append, List.foldl_cons,
      List.foldl_nil, finished]
  have lastStop := lastPosition_shift (front ++ [lineEnd]) notEmpty lines
  rw [List.append_assoc, List.singleton_append] at lastStop
  have wholeRead :
      ((front ++ lineEnd :: tokens.map (Token.shift lines)).foldl Parser.step
          .initial).finish ((lastPosition tokens).shift lines) =
        ((tokens.foldl Parser.step .initial).finish
          (lastPosition tokens)).behind parser lines := by
    rw [← Parser.finish_behind, ← Parser.foldl_behind,
      Parser.initial_behind idle noneOpen, List.foldl_append,
      List.foldl_cons, read]
  have noneLeft :
      ((tokens.foldl Parser.step .initial).finish
        (lastPosition tokens)).blocks = [] :=
    (Parser.leaveBlocks_eq rfl _).2
  intro above below whole
  simp only [above, below, whole, aboveParsed]
  rw [parseTokens, lastStop, wholeRead]
  simp [parseTokens, Parser.behind, noneLeft, placeBehind]

theorem sortProblems_shift
    (lines : Nat)
    (problems : List Problem) :
    sortProblems (problems.map (Problem.shift lines)) =
      (sortProblems problems).map (Problem.shift lines) := by
  unfold sortProblems
  rw [List.map_mergeSort]
  intro first _ second _
  simp [Problem.shift, Position.shift, Position.le_iff]

/-- The problems of a text come before those of the lines below it. -/
theorem sortProblems_append
    {lines : Nat}
    {lexical ofTokens : List Problem}
    (above : ∀ problem ∈ lexical ++ ofTokens, problem.position.line < lines)
    (laterLexical laterOfTokens : List Problem) :
    sortProblems
        ((lexical ++ laterLexical.map (Problem.shift lines)) ++
          (ofTokens ++ laterOfTokens.map (Problem.shift lines))) =
      sortProblems (lexical ++ ofTokens) ++
        (sortProblems (laterLexical ++ laterOfTokens)).map
          (Problem.shift lines) := by
  have kept
      {problems : List Problem}
      (areAbove : ∀ problem ∈ problems, problem.position.line < lines) :
      problems.filter (Problem.isAbove lines) = problems ∧
        problems.filter (fun problem => !problem.isAbove lines) = [] := by
    simpa [Problem.isAbove] using areAbove
  have moved (problems : List Problem) :
      (problems.map (Problem.shift lines)).filter (Problem.isAbove lines) = [] ∧
        (problems.map (Problem.shift lines)).filter
            (fun problem => !problem.isAbove lines) =
          problems.map (Problem.shift lines) := by
    simp [Problem.isAbove, Problem.shift, Position.shift]
  rw [List.forall_mem_append] at above
  rw [sortProblems_lines lines]
  simp only [List.filter_append, (kept above.1).1, (kept above.1).2,
    (kept above.2).1, (kept above.2).2, (moved laterLexical).1,
    (moved laterLexical).2, (moved laterOfTokens).1, (moved laterOfTokens).2,
    List.append_nil, List.nil_append]
  rw [← List.map_append, sortProblems_shift]

/--
Scripts are read line by line.  For all texts with at most a million bytes between
them, if the first leaves no block open, then the first with the second below it has
the commands of the first and, so many lines further down as the first has, those
of the second; and its problems are those of the first followed by those of the
second, moved down alike.
-/
theorem parse_compositional
    (first second : String)
    (fits : (first ++ "\n" ++ second).utf8ByteSize ≤ 1000000)
    (closed : AreClosed (parse first).commands) :
    let lines := (Text.Lines.ofText first).toList.length
    let whole := parse (first ++ "\n" ++ second)
    whole.commands =
        (parse first).commands ++
          (parse second).commands.map (Command.shift lines) ∧
      whole.problems =
        (parse first).problems ++
          (parse second).problems.map (Problem.shift lines) := by
  have wholeSize :
      (first ++ "\n" ++ second).utf8ByteSize =
        first.utf8ByteSize + 1 + second.utf8ByteSize := by
    rw [String.utf8ByteSize_append, String.utf8ByteSize_append]
    rfl
  have firstFits : first.utf8ByteSize ≤ maxBytes := by
    rw [maxBytes]
    omega
  have secondFits : second.utf8ByteSize ≤ maxBytes := by
    rw [maxBytes]
    omega
  intro lines whole
  obtain ⟨front, lineEnd, lastEnd, isBreak, isEnd, shape, appended⟩ :=
    lex_append first second
  obtain ⟨tokens, last, firstShape, -, notEnd⟩ := tokens_lex first
  obtain ⟨secondTokens, secondLast, secondShape, -, -⟩ := tokens_lex second
  have notEmpty : (lex second).tokens ≠ [] := by
    simp [secondShape]
  have sameFront : tokens = front :=
    (List.append_inj' (firstShape.symm.trans shape) rfl).1
  subst front
  rw [parse_of_fits firstFits, shape] at closed
  obtain ⟨commands, problems⟩ :=
    parseTokens_append notEnd isBreak isEnd closed notEmpty lines
  rw [← shape, ← appended] at commands problems
  have above :
      ∀ problem ∈
          (lex first).problems ++ (parseTokens (lex first).tokens).problems,
        problem.position.line < lines :=
    fun problem member => line_of_mem_problems member
  simp only [whole, parse_of_fits fits, parse_of_fits firstFits,
    parse_of_fits secondFits]
  refine ⟨commands, ?_⟩
  rw [problems_lex_append, problems]
  exact sortProblems_append above _ _

theorem parse_compositional_broken :
    let first := ")\n'open\nexec ( x \"y\nconnect a (\n  set $b 1 ) z"
    let second := "$skip\nload 'x\nexec (\n  [1"
    let whole := parse (first ++ "\n" ++ second)
    (first ++ "\n" ++ second).utf8ByteSize ≤ 1000000 ∧
      AreClosed (parse first).commands ∧
      (parse first).problems.length = 5 ∧
      (parse second).problems.length = 5 ∧
      whole.commands =
        (parse first).commands ++
          (parse second).commands.map (Command.shift 5) ∧
      whole.problems =
        (parse first).problems ++
          (parse second).problems.map (Problem.shift 5) := by
  intro first second whole
  have fits : (first ++ "\n" ++ second).utf8ByteSize ≤ 1000000 := by
    decide +kernel
  have closed : AreClosed (parse first).commands := by
    decide +kernel
  have fiveLines : (Text.Lines.ofText first).toList.length = 5 := by
    decide +kernel
  have firstBroken : (parse first).problems.length = 5 := by
    rw [parse_of_fits (by decide +kernel), sortProblems, List.length_mergeSort]
    decide +kernel
  have secondBroken : (parse second).problems.length = 5 := by
    rw [parse_of_fits (by decide +kernel), sortProblems, List.length_mergeSort]
    decide +kernel
  have composed := parse_compositional first second fits closed
  rw [fiveLines] at composed
  exact ⟨fits, closed, firstBroken, secondBroken, composed.1, composed.2⟩

end Script

end ScriptCompletion
