import Mathlib.Data.List.TakeWhile
import ScriptCompletion.Proofs.TokenText
import ScriptCompletion.Script.Parser

namespace ScriptCompletion.Script

/-!
# Where problems stand

Every problem of a script stands where one of its tokens starts.  The lexer reports
a lexeme that it has just recorded; the parser reports the token that it reads, or
an opening parenthesis that it keeps until it knows what becomes of it.

Problems are sorted by position.  Where all of one kind stand before all others,
the two kinds are sorted on their own.
-/

namespace Lexer

/-- Whether every problem stands where a recorded token starts. -/
def ReportsTokens (lexer : Lexer) : Prop :=
  ∀ problem ∈ lexer.problems,
    ∃ token ∈ lexer.tokens, token.start = problem.position

namespace ReportsTokens

variable {lexer : Lexer}

theorem emit
    (reportsTokens : lexer.ReportsTokens)
    (kind : TokenKind)
    (text : List Char)
    (start stop : Nat) :
    (lexer.emit kind text start stop).ReportsTokens := by
  intro problem member
  obtain ⟨token, recorded, isStart⟩ := reportsTokens problem member
  exact ⟨token, List.mem_cons_of_mem _ recorded, isStart⟩

/-- The lexeme that was just recorded can be reported. -/
theorem emit_report
    (reportsTokens : lexer.ReportsTokens)
    (kind : TokenKind)
    (text : List Char)
    (start stop : Nat)
    (cause : Option Cause) :
    ((lexer.emit kind text start stop).report cause start).ReportsTokens := by
  have emitted := reportsTokens.emit kind text start stop
  cases cause with
  | none =>
      exact emitted
  | some cause =>
      intro problem member
      rcases List.mem_cons.mp member with isNew | isOld
      · subst problem
        exact ⟨_, List.mem_cons_self, rfl⟩
      · exact emitted problem isOld

theorem interrupt
    (reportsTokens : lexer.ReportsTokens) :
    lexer.interrupt.ReportsTokens := by
  unfold Lexer.interrupt
  cases lexer.mode with
  | idle | comment =>
      exact reportsTokens
  | reading lexeme start text =>
      exact reportsTokens.emit_report lexeme.kind text.reverse start
        lexer.column lexeme.interruption

theorem start
    (reportsTokens : lexer.ReportsTokens)
    (character : Char) :
    (lexer.start character).ReportsTokens := by
  have bracket (kind : TokenKind) :=
    reportsTokens.emit kind [character] lexer.column (lexer.column + 1)
  unfold Lexer.start
  split
  · exact reportsTokens
  · split
    · exact reportsTokens
    · split
      · exact bracket .opening
      · split
        · exact bracket .closing
        · exact reportsTokens

/-- A character leads to no problem without a token. -/
theorem step
    (reportsTokens : lexer.ReportsTokens)
    (character : Char) :
    (lexer.step character).ReportsTokens := by
  unfold Lexer.step
  split
  · exact reportsTokens.interrupt.emit .newline ['\n'] _ _
  · unfold Lexer.advance
    cases lexer.mode with
    | idle =>
        exact reportsTokens.start character
    | comment =>
        exact reportsTokens
    | reading lexeme start text =>
        cases received : lexeme.receive character with
        | extended next =>
            simp only [received]
            exact reportsTokens
        | completed =>
            simp only [received]
            exact reportsTokens.emit lexeme.kind (character :: text).reverse
              start (lexer.column + 1)
        | refused =>
            simpa only [received] using reportsTokens.interrupt.start character

theorem foldl_step
    (reportsTokens : lexer.ReportsTokens)
    (characters : List Char) :
    (characters.foldl Lexer.step lexer).ReportsTokens := by
  induction characters generalizing lexer with
  | nil =>
      exact reportsTokens
  | cons character rest inductionHypothesis =>
      exact inductionHypothesis (reportsTokens.step character)

end ReportsTokens

end Lexer

/-- A problem inside a lexeme stands at its token. -/
theorem token_of_mem_problems_lex
    {text : String}
    {problem : Problem}
    (member : problem ∈ (lex text).problems) :
    ∃ token ∈ (lex text).tokens, token.start = problem.position := by
  have nothing : Lexer.initial.ReportsTokens := by
    intro problem member
    cases member
  have read := nothing.foldl_step text.toList
  have ended := read.interrupt.emit .endOfText []
  simp only [lex, List.mem_reverse] at member ⊢
  exact ended _ _ problem member

/-- The opening parenthesis whose meaning the next token decides. -/
def ParserMode.undecided : ParserMode → List Token
  | .opened _ opening =>
      [opening]
  | .idle | .header _ | .skipping | .ended =>
      []

namespace Parser

/-- Where problems were reported, and where one would be reported at the end. -/
def noted (parser : Parser) : List Position :=
  parser.problems.map Problem.position ++
    parser.blocks.map fun block => block.opening.start

/-- All places at which the parser has reported a problem or may still do so
without reading another token. -/
def places (parser : Parser) : List Position :=
  parser.mode.undecided.map Token.start ++ parser.noted

theorem places_readIdle
    (parser : Parser)
    (token : Token) :
    (parser.readIdle token).places ⊆ token.start :: parser.noted := by
  cases kind : token.kind with
  | closing =>
      cases opened : parser.blocks with
      | nil =>
          simp [readIdle, kind, opened, report, places, noted,
            ParserMode.undecided]
      | cons block outer =>
          intro position
          simp only [readIdle, kind, opened, leaveBlock, places, noted,
            ParserMode.undecided, List.map_nil, List.nil_append, List.map_cons,
            List.mem_append, List.mem_cons]
          grind
  | _ =>
      simp [readIdle, kind, report, places, noted, ParserMode.undecided]

theorem places_readHeader
    (parser : Parser)
    (header : Header)
    (token : Token) :
    (parser.readHeader header token).places ⊆
      token.start :: parser.noted := by
  have finished := places_readIdle (parser.push (header.toCommand none)) token
  cases kind : token.kind with
  | newline | closing | endOfText =>
      simp only [readHeader, kind]
      exact finished
  | _ =>
      simp [readHeader, kind, places, noted, ParserMode.undecided]

theorem noted_enterBlock
    (parser : Parser)
    (header : Header)
    (opening : Token) :
    (parser.enterBlock header opening).noted ⊆
      opening.start :: parser.noted := by
  unfold enterBlock
  split
  · simp [noted, push, report]
  · intro position
    simp only [noted, List.map_cons, List.mem_append, List.mem_cons]
    grind

/-- A token adds no place but its own. -/
theorem places_step
    (parser : Parser)
    (token : Token) :
    (parser.step token).places ⊆ token.start :: parser.places := by
  have fromIdle
      {current : Parser}
      (added : current.noted ⊆ parser.places) :
      (current.readIdle token).places ⊆ token.start :: parser.places :=
    List.Subset.trans (places_readIdle current token)
      (List.cons_subset_cons _ added)
  have fromHeader
      {current : Parser}
      (header : Header)
      (added : current.noted ⊆ parser.places) :
      (current.readHeader header token).places ⊆
        token.start :: parser.places :=
    List.Subset.trans (places_readHeader current header token)
      (List.cons_subset_cons _ added)
  have kept : parser.noted ⊆ parser.places :=
    List.subset_append_right _ _
  cases mode : parser.mode with
  | idle =>
      simpa only [step, mode] using fromIdle kept
  | header header =>
      simpa only [step, mode] using fromHeader header kept
  | opened header opening =>
      have places : parser.places = opening.start :: parser.noted := by
        simp [Parser.places, mode, ParserMode.undecided]
      simp only [step, mode, readOpened]
      split
      · apply fromIdle
        rw [places]
        exact noted_enterBlock parser header opening
      · apply fromHeader
        rw [places]
        exact List.Subset.refl _
  | skipping =>
      simp only [step, mode]
      split
      · exact fromIdle kept
      · exact List.subset_cons_self _ _
  | ended =>
      simp only [step, mode]
      exact List.subset_cons_self _ _

theorem places_foldl
    (parser : Parser)
    (tokens : List Token) :
    (tokens.foldl step parser).places ⊆
      tokens.map Token.start ++ parser.places := by
  induction tokens generalizing parser with
  | nil =>
      exact List.Subset.refl _
  | cons token rest inductionHypothesis =>
      refine List.Subset.trans (inductionHypothesis (parser.step token)) ?_
      have added := places_step parser token
      intro position member
      simp only [List.map_cons, List.mem_append, List.mem_cons] at member ⊢
      grind

theorem noted_settle (parser : Parser) :
    parser.settle.noted ⊆ parser.places := by
  have kept : parser.noted ⊆ parser.places :=
    List.subset_append_right _ _
  cases mode : parser.mode with
  | idle | skipping | ended | header =>
      simp only [settle, mode]
      exact kept
  | opened header opening =>
      have entered := noted_enterBlock parser header opening
      simp only [settle, mode, places, ParserMode.undecided]
      exact entered

theorem positions_leaveBlocks
    (parser : Parser)
    (stop : Position)
    (blocks : List OpenBlock) :
    (parser.leaveBlocks stop blocks).problems.map Problem.position ⊆
      parser.problems.map Problem.position ++
        blocks.map fun block => block.opening.start := by
  induction blocks generalizing parser with
  | nil =>
      simp [leaveBlocks]
  | cons block outer inductionHypothesis =>
      refine List.Subset.trans (inductionHypothesis _) ?_
      intro position
      simp only [report, leaveBlock, List.map_cons, List.mem_append,
        List.mem_cons]
      grind

end Parser

/-- A problem with the order of tokens stands at one of them. -/
theorem token_of_mem_problems_parseTokens
    {tokens : List Token}
    {problem : Problem}
    (member : problem ∈ (parseTokens tokens).problems) :
    ∃ token ∈ tokens, token.start = problem.position := by
  have reported :
      problem.position ∈
        ((tokens.foldl Parser.step .initial).finish
          (lastPosition tokens)).problems.map Problem.position :=
    List.mem_map_of_mem (List.mem_reverse.mp member)
  have settled := Parser.positions_leaveBlocks _ _ _ reported
  have read := Parser.noted_settle _ settled
  have atToken := Parser.places_foldl .initial tokens read
  have isStart : problem.position ∈ tokens.map Token.start := by
    simpa [Parser.places, Parser.noted, Parser.initial,
      ParserMode.undecided] using atToken
  exact List.mem_map.mp isStart

/-- No token of numbered lines stands behind the last one. -/
theorem line_le_of_mem_lexLines
    {number : Nat}
    {line : List Char}
    {later : List (List Char)}
    {token : Token}
    (member : token ∈ (lexLines number line later).tokens) :
    token.line ≤ number + later.length := by
  induction later generalizing number line with
  | nil =>
      simp only [lexLines, List.mem_append, List.mem_singleton] at member
      rcases member with inLine | isEnd
      · exact Nat.le_of_eq (areOnLine_lexLine number line token inLine).1
      · subst token
        exact Nat.le_refl number
  | cons next rest inductionHypothesis =>
      simp only [lexLines, List.mem_append, List.mem_cons] at member
      rcases member with inLine | isBreak | isLater
      · have onLine := (areOnLine_lexLine number line token inLine).1
        omega
      · subst token
        exact Nat.le_add_right _ _
      · have notBehind := inductionHypothesis isLater
        rw [List.length_cons]
        omega

/-- Every problem of a text stands on one of its lines. -/
theorem line_of_mem_problems
    {text : String}
    {problem : Problem}
    (member :
      problem ∈
        (lex text).problems ++ (parseTokens (lex text).tokens).problems) :
    problem.position.line < (Text.Lines.ofText text).toList.length := by
  have atToken :
      ∃ token ∈ (lex text).tokens, token.start = problem.position := by
    rcases List.mem_append.mp member with isLexical | isOfTokens
    · exact token_of_mem_problems_lex isLexical
    · exact token_of_mem_problems_parseTokens isOfTokens
  obtain ⟨token, recorded, isStart⟩ := atToken
  rw [lex_eq_lexLines] at recorded
  have notBehind := line_le_of_mem_lexLines recorded
  have sameLine : problem.position.line = token.line := by
    rw [← isStart]
    rfl
  rw [Text.Lines.toList, List.length_cons]
  omega

/-!
## Sorting
-/

theorem position_total (first second : Problem) :
    (decide (first.position ≤ second.position) ||
      decide (second.position ≤ first.position)) = true := by
  simp only [Position.le_iff, Bool.or_eq_true, decide_eq_true_eq]
  omega

theorem position_trans
    (first second third : Problem)
    (earlier : decide (first.position ≤ second.position) = true)
    (later : decide (second.position ≤ third.position) = true) :
    decide (first.position ≤ third.position) = true := by
  rw [decide_eq_true_eq] at *
  exact Position.le_trans earlier later

/-- Whether another problem stands before this one. -/
def Problem.isBehind
    (problem other : Problem) : Bool :=
  !decide (problem.position ≤ other.position)

/-- Problems at the end that do not stand before this one are left there. -/
theorem takeWhile_isBehind_append
    {problem : Problem}
    {behind : List Problem}
    (areBehind : ∀ other ∈ behind, problem.isBehind other = false)
    (before : List Problem) :
    (before ++ behind).takeWhile problem.isBehind =
        before.takeWhile problem.isBehind ∧
      (before ++ behind).dropWhile problem.isBehind =
        before.dropWhile problem.isBehind ++ behind := by
  induction before with
  | nil =>
      cases behind with
      | nil =>
          exact ⟨rfl, rfl⟩
      | cons next rest =>
          simp [areBehind next List.mem_cons_self]
  | cons first rest inductionHypothesis =>
      cases isBefore : problem.isBehind first with
      | true =>
          simp [isBefore, inductionHypothesis]
      | false =>
          simp [isBefore]

/-- A problem is sorted in before the first one that does not stand before it. -/
theorem sortProblems_cons
    (problem : Problem)
    (rest : List Problem) :
    sortProblems (problem :: rest) =
      (sortProblems rest).takeWhile problem.isBehind ++
        problem :: (sortProblems rest).dropWhile problem.isBehind := by
  obtain ⟨before, behind, sorted, restSorted, areBefore⟩ :=
    List.mergeSort_cons position_trans position_total problem rest
  have isSorted :=
    List.pairwise_mergeSort position_trans position_total (problem :: rest)
  rw [sorted, List.pairwise_append, List.pairwise_cons] at isSorted
  have areBehind :
      ∀ other ∈ behind, problem.isBehind other = false := by
    intro other member
    rw [Problem.isBehind, isSorted.2.1.1 other member]
    rfl
  obtain ⟨taken, left⟩ := takeWhile_isBehind_append areBehind before
  have allTaken : before.takeWhile problem.isBehind = before :=
    List.takeWhile_eq_self_iff.mpr areBefore
  have noneLeft : before.dropWhile problem.isBehind = [] :=
    List.dropWhile_eq_nil_iff.mpr areBefore
  unfold sortProblems
  rw [sorted, restSorted, taken, left, allTaken, noneLeft, List.nil_append]

/-- Whether a problem stands on one of the first so many lines. -/
def Problem.isAbove
    (bound : Nat)
    (problem : Problem) : Bool :=
  decide (problem.position.line < bound)

theorem Problem.isBehind_of_isAbove
    {bound : Nat}
    {above below : Problem}
    (isAbove : above.isAbove bound = true)
    (isBelow : below.isAbove bound = false) :
    above.isBehind below = false ∧ below.isBehind above = true := by
  simp only [Problem.isAbove, decide_eq_true_eq,
    decide_eq_false_iff_not] at isAbove isBelow
  simp only [Problem.isBehind, Position.le_iff, Bool.not_eq_false',
    Bool.not_eq_true', decide_eq_true_eq, decide_eq_false_iff_not]
  omega

/-- The problems of the first lines and those of the lines below are sorted on
their own. -/
theorem sortProblems_lines
    (bound : Nat)
    (problems : List Problem) :
    sortProblems problems =
      sortProblems (problems.filter (Problem.isAbove bound)) ++
        sortProblems
          (problems.filter fun problem => !problem.isAbove bound) := by
  induction problems with
  | nil =>
      simp [sortProblems]
  | cons problem rest inductionHypothesis =>
      have areAbove :
          ∀ other ∈ sortProblems (rest.filter (Problem.isAbove bound)),
            other.isAbove bound = true := by
        intro other member
        exact (List.mem_filter.mp (List.mem_mergeSort.mp member)).2
      have areBelow :
          ∀ other ∈
              sortProblems (rest.filter fun own => !own.isAbove bound),
            other.isAbove bound = false := by
        intro other member
        have := (List.mem_filter.mp (List.mem_mergeSort.mp member)).2
        simpa using this
      rw [sortProblems_cons, inductionHypothesis]
      -- It goes into its own part: all problems below stay behind one above, and
      -- all above stay before one below.
      cases isAbove : problem.isAbove bound with
      | true =>
          have areBehind := fun other member =>
            (Problem.isBehind_of_isAbove isAbove (areBelow other member)).1
          obtain ⟨taken, left⟩ := takeWhile_isBehind_append areBehind
            (sortProblems (rest.filter (Problem.isAbove bound)))
          rw [taken, left, List.filter_cons_of_pos isAbove,
            List.filter_cons_of_neg (by simp [isAbove]), sortProblems_cons,
            List.append_assoc, List.cons_append]
      | false =>
          have areBefore := fun other member =>
            (Problem.isBehind_of_isAbove (areAbove other member) isAbove).2
          rw [List.takeWhile_append_of_pos areBefore,
            List.dropWhile_append_of_pos areBefore,
            List.filter_cons_of_neg (by simp [isAbove]),
            List.filter_cons_of_pos (by simp [isAbove]),
            sortProblems_cons, List.append_assoc]

end ScriptCompletion.Script
