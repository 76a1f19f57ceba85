import ScriptCompletion.Proofs.EarlyLines
import ScriptCompletion.Proofs.Layout
import ScriptCompletion.Proofs.ScriptGrammar

namespace ScriptCompletion.Script

/-!
# No token is lost without a word

Whatever is wrong with a script, its tokens stand in the tree or are accounted
for: they end a line, a problem is reported at them, or they stand behind a token
of their line that cannot begin a command, which makes the parser skip the rest
of the line.

The parser accounts for a token when it reads it, with one exception: of an
opening parenthesis the next token shows whether it stays.
-/

/-- Whether the cause lies in the order of tokens, and not inside one of them. -/
def Cause.isOfTokens : Cause → Bool
  | .unexpectedClosing | .expectedCommandName _ | .openingInsideLine
  | .nestedTooDeep | .unclosedBlock =>
      true
  | .inputTooLarge _ | .unterminatedString _ | .unclosedArray
  | .unclosedHelperCall =>
      false

/-- Whether a problem with the order of tokens is reported at the position. -/
def IsReportedAt
    (problems : List Problem)
    (position : Position) : Prop :=
  ∃ problem ∈ problems,
    problem.cause.isOfTokens = true ∧ problem.position = position

/-- Whether a token is reported as one that cannot begin a command. -/
def IsReportedStart
    (problems : List Problem)
    (token : Token) : Prop :=
  ⟨.expectedCommandName token.value, token.start⟩ ∈ problems

/-- Why a token does not stand in the tree. -/
inductive IsPassedOver
    (problems : List Problem)
    (tokens : List Token)
    (token : Token) : Prop where
  /-- It is a line feed or the end of the text. -/
  | lineEnd :
      token.kind.endsLine = true →
      IsPassedOver problems tokens token
  | reported :
      IsReportedAt problems token.start →
      IsPassedOver problems tokens token
  /-- It stands behind a token of its line that cannot begin a command. -/
  | skipped {other : Token} :
      other ∈ tokens →
      other.line = token.line →
      other.stopColumn ≤ token.column →
      IsReportedStart problems other →
      IsPassedOver problems tokens token

/-- Whether a piece is among the marks, or a problem is reported where it
starts. -/
def Covers
    (marks : List Mark)
    (problems : List Problem)
    (piece : Piece) : Prop :=
  .written piece ∈ marks ∨
    ∃ start,
      piece.range.map Span.start = some start ∧ IsReportedAt problems start

theorem IsReportedAt.mono
    {problems more : List Problem}
    (added : problems <:+ more)
    {position : Position}
    (reported : IsReportedAt problems position) :
    IsReportedAt more position := by
  obtain ⟨problem, member, isAt⟩ := reported
  exact ⟨problem, added.subset member, isAt⟩

theorem Covers.mono
    {marks moreMarks : List Mark}
    {problems more : List Problem}
    {piece : Piece}
    (kept :
      .written piece ∈ marks →
      Covers moreMarks more piece)
    (added : problems <:+ more)
    (covers : Covers marks problems piece) :
    Covers moreMarks more piece := by
  rcases covers with isMark | ⟨start, isStart, reported⟩
  · exact kept isMark
  · exact .inr ⟨start, isStart, reported.mono added⟩

namespace Parser

/-- Whether the parser keeps a piece or has reported a problem at it. -/
def Covers
    (parser : Parser)
    (piece : Piece) : Prop :=
  Script.Covers parser.marks parser.problems piece

/-- A problem that was just reported covers the piece at its place. -/
theorem covers_report
    {marks : List Mark}
    (parser : Parser)
    {cause : Cause}
    (isOfTokens : cause.isOfTokens = true)
    {token : Token}
    {piece : Piece}
    (isStart : piece.range.map Span.start = some token.start) :
    Script.Covers marks (parser.report cause token).problems piece :=
  .inr ⟨token.start, isStart, _, List.mem_cons_self, isOfTokens, rfl⟩

/-- A token between commands adds its marks behind the others. -/
theorem placed_readIdle
    (parser : Parser)
    (token : Token) :
    parser.placed <+: (parser.readIdle token).placed := by
  cases kind : token.kind with
  | closing =>
      cases opened : parser.blocks with
      | nil =>
          simp [readIdle, kind, opened, placed, report]
      | cons block outer =>
          have left := placed_leaveBlock opened token.stop true
          simp only [readIdle, kind, opened]
          exact ⟨_, left.symm⟩
  | _ =>
      simp [readIdle, kind, placed, report]

/-- A token between commands takes nothing away. -/
theorem covers_readIdle
    {parser : Parser}
    {piece : Piece}
    (covers : Script.Covers parser.placed parser.problems piece)
    (token : Token) :
    (parser.readIdle token).Covers piece := by
  refine covers.mono (fun isMark => .inl ?_) (problems_readIdle parser token)
  exact List.mem_append_left _ ((placed_readIdle parser token).subset isMark)

/-- A token in the line of a command takes no piece away. -/
theorem covers_readHeader
    {parser : Parser}
    {header : Header}
    {piece : Piece}
    (covers :
      Script.Covers (parser.placed ++ (ParserMode.header header).marks)
        parser.problems piece)
    (token : Token) :
    (parser.readHeader header token).Covers piece := by
  have finished :
      ((parser.push (header.toCommand none)).readIdle token).Covers piece := by
    rw [← placed_push] at covers
    exact covers_readIdle covers token
  -- Only the place where the command seemed to end is replaced.
  have extended
      {mode : ParserMode}
      (goesOn :
        ∀ own ∈ header.line, .written own ∈ mode.marks) :
      ({ parser with mode := mode } : Parser).Covers piece := by
    refine covers.mono (fun isMark => .inl ?_) (List.suffix_refl _)
    rcases List.mem_append.mp isMark with isPlaced | inLine
    · exact List.mem_append_left _ isPlaced
    · have isOwn : piece ∈ header.line := by
        simpa [ParserMode.marks] using inLine
      exact List.mem_append_right _ (goesOn piece isOwn)
  cases kind : token.kind with
  | newline | closing | endOfText =>
      simpa only [readHeader, kind] using finished
  | opening =>
      simp only [readHeader, kind]
      apply extended
      intro own isOwn
      exact List.mem_append_left _ (List.mem_map_of_mem isOwn)
  | _ =>
      simp only [readHeader, kind]
      apply extended
      intro own isOwn
      refine List.mem_append_left _ (List.mem_map_of_mem ?_)
      rw [Header.line_push]
      exact List.mem_append_left _ isOwn

/-- Entering a block takes away nothing but a parenthesis that is reported. -/
theorem covers_enterBlock
    {parser : Parser}
    {header : Header}
    {opening : Token}
    {piece : Piece}
    (covers :
      Script.Covers (parser.placed ++ (ParserMode.opened header opening).marks)
        parser.problems piece) :
    Script.Covers (parser.enterBlock header opening).placed
      (parser.enterBlock header opening).problems piece := by
  refine covers.mono ?_ (problems_enterBlock parser header opening)
  intro isMark
  unfold enterBlock
  split
  · have added := placed_push (parser.report .nestedTooDeep opening) header
    rw [added]
    simp only [ParserMode.marks, List.mem_append, List.mem_cons] at isMark
    rcases isMark with isPlaced | inLine | isOpening | isLimit
    · exact .inl (List.mem_append_left _ isPlaced)
    · exact .inl
        (List.mem_append_right _ (List.mem_append_left _ inLine))
    · cases isOpening
      exact covers_report parser rfl rfl
    · simp at isLimit
  · refine .inl ?_
    simpa [placed, OpenBlock.marksBefore, ParserMode.marks] using isMark

/-- A token that is read takes away no piece without a report. -/
theorem covers_step
    {parser : Parser}
    {piece : Piece}
    (covers : parser.Covers piece)
    (token : Token) :
    (parser.step token).Covers piece := by
  cases mode : parser.mode with
  | idle =>
      have before : Script.Covers parser.placed parser.problems piece := by
        simpa [Covers, marks, mode, ParserMode.marks] using covers
      simpa only [step, mode] using covers_readIdle before token
  | header header =>
      rw [Covers, marks, mode] at covers
      simpa only [step, mode] using covers_readHeader covers token
  | opened header opening =>
      rw [Covers, marks, mode] at covers
      simp only [step, mode, readOpened]
      split
      · exact covers_readIdle (covers_enterBlock covers) token
      · apply covers_readHeader
        refine covers.mono ?_ (problems_report ..)
        intro isMark
        simp only [ParserMode.marks, List.mem_append, List.mem_cons] at isMark
        rcases isMark with isPlaced | inLine | isOpening | isLimit
        · exact .inl (List.mem_append_left _ isPlaced)
        · exact .inl
            (List.mem_append_right _ (List.mem_append_left _ inLine))
        · cases isOpening
          exact covers_report parser rfl rfl
        · simp at isLimit
  | skipping =>
      have before : Script.Covers parser.placed parser.problems piece := by
        simpa [Covers, marks, mode, ParserMode.marks] using covers
      simp only [step, mode]
      split
      · exact covers_readIdle before token
      · exact covers
  | ended =>
      simpa only [step, mode] using covers

/-- Between commands every token of a line is kept or reported. -/
theorem covers_token_readIdle
    (parser : Parser)
    {token : Token}
    (proper : token.IsProper)
    (inside : token.kind.endsLine = false) :
    (parser.readIdle token).Covers token.piece := by
  cases kind : token.kind with
  | endOfText | newline =>
      simp [kind, TokenKind.endsLine] at inside
  | closing =>
      cases opened : parser.blocks with
      | nil =>
          simp only [readIdle, kind, opened]
          exact covers_report parser rfl rfl
      | cons block outer =>
          have left := placed_leaveBlock opened token.stop true
          simp only [readIdle, kind, opened]
          refine .inl (List.mem_append_left _ ?_)
          have isClosing :
              .written token.piece ∈
                (parser.leaveBlock block outer token.stop true).placed := by
            rw [left, proper.closing kind]
            exact List.mem_append_right _ List.mem_cons_self
          exact isClosing
  | word =>
      simp only [readIdle, kind]
      exact .inl (List.mem_append_right _ List.mem_cons_self)
  | _ =>
      simp only [readIdle, kind]
      exact covers_report parser rfl rfl

/-- In the line of a command every token is kept or reported. -/
theorem covers_token_readHeader
    (parser : Parser)
    (header : Header)
    {token : Token}
    (proper : token.IsProper)
    (inside : token.kind.endsLine = false) :
    (parser.readHeader header token).Covers token.piece := by
  cases kind : token.kind with
  | endOfText | newline =>
      simp [kind, TokenKind.endsLine] at inside
  | closing =>
      simpa only [readHeader, kind] using
        covers_token_readIdle (parser.push (header.toCommand none)) proper inside
  | opening =>
      simp only [readHeader, kind]
      refine .inl (List.mem_append_right _ (List.mem_append_right _ ?_))
      rw [proper.opening kind]
      exact List.mem_cons_self
  | _ =>
      simp only [readHeader, kind]
      refine .inl (List.mem_append_right _ (List.mem_append_left _ ?_))
      rw [Header.line_push]
      exact List.mem_map_of_mem (List.mem_append_right _ List.mem_cons_self)

/-- A token of a line is kept or reported when it is read, unless the parser skips
the line. -/
theorem covers_token_step
    {parser : Parser}
    {token : Token}
    (proper : token.IsProper)
    (inside : token.kind.endsLine = false)
    (notSkipping : parser.mode ≠ .skipping)
    (going : parser.mode ≠ .ended) :
    (parser.step token).Covers token.piece := by
  cases mode : parser.mode with
  | idle =>
      simpa only [step, mode] using covers_token_readIdle parser proper inside
  | header header =>
      simpa only [step, mode] using
        covers_token_readHeader parser header proper inside
  | opened header opening =>
      simp only [step, mode, readOpened, inside]
      exact covers_token_readHeader
        (parser.report .openingInsideLine opening) header proper inside
  | skipping =>
      exact absurd mode notSkipping
  | ended =>
      exact absurd mode going

/-- Between commands the parser begins to skip only at a token that it
reports. -/
theorem skipping_readIdle
    {parser : Parser}
    {token : Token}
    (skips : (parser.readIdle token).mode = .skipping) :
    token.kind.endsLine = false ∧
      IsReportedStart (parser.readIdle token).problems token := by
  cases kind : token.kind with
  | endOfText | newline | word =>
      simp [readIdle, kind] at skips
  | closing =>
      cases opened : parser.blocks <;>
        simp [readIdle, kind, opened] at skips
  | _ =>
      simp [readIdle, kind, TokenKind.endsLine, IsReportedStart, report]

/-- In the line of a command nothing is skipped. -/
theorem mode_readHeader_ne_skipping
    (parser : Parser)
    (header : Header)
    (token : Token) :
    (parser.readHeader header token).mode ≠ .skipping := by
  cases kind : token.kind with
  | newline | endOfText =>
      simp [readHeader, readIdle, kind]
  | closing =>
      cases opened : parser.blocks <;>
        simp [readHeader, readIdle, push, kind, opened]
  | _ =>
      simp [readHeader, kind]

/-- The parser begins to skip at a token that it reports, and goes on up to the
end of the line. -/
theorem skipping_step
    {parser : Parser}
    {token : Token}
    (skips : (parser.step token).mode = .skipping) :
    token.kind.endsLine = false ∧
      (IsReportedStart (parser.step token).problems token ∨
        parser.mode = .skipping) := by
  cases mode : parser.mode with
  | idle =>
      simp only [step, mode] at skips ⊢
      obtain ⟨inside, reported⟩ := skipping_readIdle skips
      exact ⟨inside, .inl reported⟩
  | header header =>
      simp only [step, mode] at skips
      exact absurd skips (mode_readHeader_ne_skipping parser header token)
  | opened header opening =>
      cases inside : token.kind.endsLine with
      | true =>
          simp only [step, mode, readOpened, inside, ↓reduceIte] at skips
          rw [(skipping_readIdle skips).1] at inside
          cases inside
      | false =>
          simp only [step, mode, readOpened, inside] at skips
          exact absurd skips (mode_readHeader_ne_skipping _ header token)
  | skipping =>
      cases inside : token.kind.endsLine with
      | true =>
          simp only [step, mode, inside, ↓reduceIte] at skips
          rw [(skipping_readIdle skips).1] at inside
          cases inside
      | false =>
          exact ⟨rfl, .inr rfl⟩
  | ended =>
      simp [step, mode] at skips

/--
What holds after tokens that come line after line, when the next one stands on the
line with the given number: each of them is accounted for, and a line is skipped
because of one of its tokens.
-/
structure Accounts
    (number : Nat)
    (read : List Token)
    (parser : Parser) : Prop where
  accounted :
    ∀ token ∈ read,
      token.kind.endsLine = true ∨
        parser.Covers token.piece ∨
        ∃ other,
          [other, token].Sublist read ∧
            other.line = token.line ∧
            IsReportedStart parser.problems other
  skipping :
    parser.mode = .skipping →
    ∃ other ∈ read,
      other.line = number ∧ IsReportedStart parser.problems other

namespace Accounts

/-- One token more is accounted for. -/
theorem step
    {number : Nat}
    {read : List Token}
    {parser : Parser}
    (accounts : parser.Accounts number read)
    (going : parser.mode ≠ .ended)
    {token : Token}
    (proper : token.IsProper)
    (onLine : token.line = number) :
    (parser.step token).Accounts
      (if token.kind = .newline then number + 1 else number)
      (read ++ [token]) := by
  have added := problems_step parser token
  refine
    { accounted := ?_
      skipping := ?_ }
  · intro own member
    rcases List.mem_append.mp member with isOld | isNew
    · rcases accounts.accounted own isOld with
        isEnd | covers | ⟨other, ordered, sameLine, reported⟩
      · exact .inl isEnd
      · exact .inr (.inl (covers_step covers token))
      · exact .inr (.inr ⟨other, ordered.trans (List.sublist_append_left _ _),
          sameLine, added.subset reported⟩)
    · rw [List.mem_singleton] at isNew
      subst own
      cases inside : token.kind.endsLine with
      | true =>
          exact .inl rfl
      | false =>
          refine .inr ?_
          by_cases skips : parser.mode = .skipping
          · obtain ⟨other, isOther, otherLine, reported⟩ :=
              accounts.skipping skips
            have ordered : [other, token].Sublist (read ++ [token]) :=
              (List.singleton_sublist.mpr isOther).append (.refl [token])
            exact .inr ⟨other, ordered, otherLine.trans onLine.symm,
              added.subset reported⟩
          · exact .inl (covers_token_step proper inside skips going)
  · intro skips
    obtain ⟨inside, reported | before⟩ := skipping_step skips
    all_goals
      have notNewline : token.kind ≠ .newline := by
        intro isNewline
        simp [isNewline, TokenKind.endsLine] at inside
      rw [if_neg notNewline]
    · exact ⟨token, List.mem_append_right _ List.mem_cons_self, onLine, reported⟩
    · obtain ⟨other, isOther, otherLine, reported⟩ := accounts.skipping before
      exact ⟨other, List.mem_append_left _ isOther, otherLine,
        added.subset reported⟩

/-- Tokens before the end of the text are accounted for. -/
theorem foldl
    {number : Nat}
    {read : List Token}
    {parser : Parser}
    (accounts : parser.Accounts number read)
    (going : parser.mode ≠ .ended)
    {tokens rest : List Token}
    (proper : ∀ token ∈ tokens, token.IsProper)
    (consecutive : AreConsecutive number (tokens ++ rest))
    (notEnd : ∀ token ∈ tokens, token.kind ≠ .endOfText) :
    ∃ last,
      (tokens.foldl Parser.step parser).Accounts last (read ++ tokens) ∧
        (tokens.foldl Parser.step parser).mode ≠ .ended ∧
        AreConsecutive last rest := by
  induction tokens generalizing number read parser with
  | nil =>
      exact ⟨number, by simpa using accounts, going, consecutive⟩
  | cons token more inductionHypothesis =>
      rw [List.forall_mem_cons] at proper notEnd
      obtain ⟨last, later, stillGoing, behind⟩ :=
        inductionHypothesis (accounts.step going proper.1 consecutive.1)
          (mode_step_ne_ended going notEnd.1) proper.2 consecutive.2 notEnd.2
      exact ⟨last, by simpa using later, stillGoing, behind⟩

end Accounts

theorem accounts_initial :
    initial.Accounts 0 [] where
  accounted := by
    simp
  skipping := by
    simp [initial]

/-- What was reported stays so at the end of the tokens. -/
theorem problems_finish
    {parser : Parser}
    (ended : parser.mode = .ended)
    (stop : Position) :
    parser.problems <:+ (parser.finish stop).problems := by
  have leaves
      (current : Parser)
      (blocks : List OpenBlock) :
      current.problems <:+ (current.leaveBlocks stop blocks).problems := by
    induction blocks generalizing current with
    | nil =>
        exact List.suffix_refl _
    | cons block outer inductionHypothesis =>
        exact (problems_report (current.leaveBlock block outer stop false)
          .unclosedBlock block.opening).trans (inductionHypothesis _)
  have settled : parser.settle = { parser with mode := .ended } := by
    simp only [settle, ended]
  rw [finish, settled]
  exact leaves { parser with mode := .ended } _

/-- What a parser covers at the end of the text is in the tree or reported. -/
theorem Covers.finish
    {parser : Parser}
    (ended : parser.mode = .ended)
    {piece : Piece}
    (covers : parser.Covers piece)
    (stop : Position) :
    piece ∈ traversal (parser.finish stop).commands.reverse ∨
      ∃ start,
        piece.range.map Span.start = some start ∧
          IsReportedAt (parser.finish stop).problems start := by
  rcases covers with isMark | ⟨start, isStart, reported⟩
  · have isPlaced : .written piece ∈ parser.settle.placed := by
      simpa [marks, ended, ParserMode.marks, settle, placed] using isMark
    refine .inl ?_
    rw [← filterMap_layout, layout_finish]
    exact List.mem_filterMap.mpr
      ⟨.written piece, List.mem_append_left _ isPlaced, rfl⟩
  · exact .inr ⟨start, isStart, reported.mono (problems_finish ended stop)⟩

end Parser

/-- The tokens up to the end of a text are accounted for by their parsing. -/
theorem accounted_parseTokens
    {tokens : List Token}
    {last : Token}
    (proper : ∀ token ∈ tokens ++ [last], token.IsProper)
    (consecutive : AreConsecutive 0 (tokens ++ [last]))
    (notEnd : ∀ token ∈ tokens, token.kind ≠ .endOfText)
    (isEnd : last.kind = .endOfText)
    {token : Token}
    (member : token ∈ tokens ++ [last]) :
    token.kind.endsLine = true ∨
      token.piece ∈ traversal (parseTokens (tokens ++ [last])).commands ∨
      IsReportedAt (parseTokens (tokens ++ [last])).problems token.start ∨
      ∃ other,
        [other, token].Sublist (tokens ++ [last]) ∧
          other.line = token.line ∧
          IsReportedStart (parseTokens (tokens ++ [last])).problems other := by
  have going : Parser.initial.mode ≠ .ended := by
    simp [Parser.initial]
  obtain ⟨number, before, stillGoing, behind⟩ :=
    Parser.accounts_initial.foldl going
      (fun own isOwn => proper own (List.mem_append_left _ isOwn)) consecutive
      notEnd
  have after :=
    before.step stillGoing (proper last (by simp)) behind.1
  have isBreak : ({ last with kind := .newline } : Token).kind = .newline := rfl
  have ended :
      ((tokens.foldl Parser.step .initial).step last).mode = .ended := by
    rw [Parser.step_endOfText stillGoing isBreak isEnd]
  have added := Parser.problems_finish ended (lastPosition (tokens ++ [last]))
  simp only [parseTokens, List.foldl_append, List.foldl_cons, List.foldl_nil]
  rcases after.accounted token member with
    isLineEnd | covers | ⟨other, ordered, sameLine, reported⟩
  · exact .inl isLineEnd
  · rcases covers.finish ended (lastPosition (tokens ++ [last])) with
      isKept | ⟨start, isStart, problem, found, isAt⟩
    · exact .inr (.inl isKept)
    · cases isStart
      exact .inr (.inr (.inl ⟨problem, List.mem_reverse.mpr found, isAt⟩))
  · exact .inr (.inr (.inr
      ⟨other, ordered, sameLine,
        List.mem_reverse.mpr (added.subset reported)⟩))

/-!
## Texts
-/

/-- No two tokens of a line have the same place. -/
theorem nodup_ranges_inside (text : String) :
    (((lex text).inside.map Token.piece).map Piece.range).Nodup := by
  have increasing := lex_stops_increasing text
  rw [List.pairwise_map] at increasing
  rw [List.map_map, List.Nodup, List.pairwise_map]
  refine increasing.imp ?_
  intro first second before same
  have sameStop : first.stop = second.stop := by
    have sameSpan : first.span = second.span := Option.some.inj same
    exact congrArg Span.stop sameSpan
  rw [sameStop, Position.lt_iff] at before
  omega

theorem mem_problems_parse
    {text : String}
    (fits : text.utf8ByteSize ≤ maxBytes)
    {problem : Problem}
    (found : problem ∈ (parseTokens (lex text).tokens).problems) :
    problem ∈ (parse text).problems := by
  rw [parse_of_fits fits]
  exact List.mem_mergeSort.mpr (List.mem_append_right _ found)

/-- Every token of a text is in the tree or accounted for. -/
theorem kept_or_passedOver
    {text : String}
    (fits : text.utf8ByteSize ≤ maxBytes)
    {token : Token}
    (member : token ∈ (lex text).tokens) :
    token.piece ∈ traversal (parse text).commands ∨
      IsPassedOver (parse text).problems (lex text).tokens token := by
  have commands :
      (parse text).commands = (parseTokens (lex text).tokens).commands := by
    rw [parse_of_fits fits]
  obtain ⟨tokens, last, shape, isEnd, notEnd⟩ := tokens_lex text
  have proper : ∀ own ∈ (lex text).tokens, own.IsProper :=
    fun own isOwn => isProper_of_mem_lex isOwn
  have consecutive := lex_consecutive text
  rw [shape] at proper consecutive member
  have accounted :=
    accounted_parseTokens proper consecutive notEnd isEnd member
  rw [← shape] at accounted
  rw [commands]
  rcases accounted with
    isLineEnd | isKept | ⟨problem, found, isAt⟩ |
      ⟨other, ordered, sameLine, reported⟩
  · exact .inr (.lineEnd isLineEnd)
  · exact .inl isKept
  · exact .inr (.reported ⟨problem, mem_problems_parse fits found, isAt⟩)
  · have separated : (lex text).tokens.Pairwise Token.IsBefore := by
      rw [lex_eq_lexLines]
      exact lexLines_separated 0 _ _
    have before : other.IsBefore token :=
      List.pairwise_iff_forall_sublist.mp separated ordered
    have inFront : other.stopColumn ≤ token.column := by
      rcases Position.le_iff.mp before with earlier | ⟨-, inFront⟩
      · simp [Token.stop, Token.start, sameLine] at earlier
      · exact inFront
    exact .inr (.skipped (ordered.subset (by simp)) sameLine inFront
      (mem_problems_parse fits reported))

/--
No token of a text of at most a million bytes is lost without a word.  The names,
arguments and parentheses of the tree are, by text and place, a part of the tokens
in the same order, each at a place of its own; and every other token ends a line,
has a problem reported at it, or stands behind a token of its line that is reported
as one that cannot begin a command.  So the tree of a text without problems has all
tokens but the line ends.
-/
theorem no_token_lost
    (text : String)
    (fits : text.utf8ByteSize ≤ 1000000) :
    (traversal (parse text).commands).Sublist
        ((lex text).tokens.map Token.piece) ∧
      ((traversal (parse text).commands).map Piece.range).Nodup ∧
      (∀ token ∈ (lex text).tokens,
        token.piece ∈ traversal (parse text).commands ∨
          IsPassedOver (parse text).problems (lex text).tokens token) ∧
      ((parse text).isClean = true →
        traversal (parse text).commands =
          ((lex text).tokens.filter fun token =>
            !token.kind.endsLine).map Token.piece) := by
  have inside := traversal_sublist_lex text
  have nodup := nodup_ranges_inside text
  refine ⟨?_, ?_, fun token => kept_or_passedOver fits, ?_⟩
  · exact inside.trans (List.filter_sublist.map _)
  · exact nodup.sublist (inside.map _)
  · intro clean
    have nothing : (parse text).problems = [] := by
      simpa [Parsing.isClean] using clean
    have allKept :
        (lex text).inside.map Token.piece ⊆ traversal (parse text).commands := by
      intro piece isPiece
      obtain ⟨token, isInside, rfl⟩ := List.mem_map.mp isPiece
      obtain ⟨member, notEnd⟩ := List.mem_filter.mp isInside
      rcases kept_or_passedOver fits member with isKept | passedOver
      · exact isKept
      · rw [nothing] at passedOver
        cases passedOver with
        | lineEnd isLineEnd =>
            simp [isLineEnd] at notEnd
        | reported isReported =>
            obtain ⟨problem, found, -⟩ := isReported
            cases found
        | skipped _ _ _ isReported =>
            cases isReported
    have distinct : ((lex text).inside.map Token.piece).Nodup :=
      (List.pairwise_map.mp nodup).imp fun different same =>
        different (congrArg Piece.range same)
    exact inside.eq_of_length_le (distinct.length_le_of_subset allKept)

theorem no_token_lost_recovering :
    let broken := ")\n'oops' x (\nexec ( foo\nconnect 0x (\n  set $a 1 )\nx ("
    let clean := "connect 0x (\n  set $a [1]\n)"
    broken.utf8ByteSize ≤ 1000000 ∧
      clean.utf8ByteSize ≤ 1000000 ∧
      (traversal (parse broken).commands).map Piece.text =
        ["exec", "foo", "connect", "0x", "(", "set", "$a", "1", ")", "x", "("] ∧
      (∀ token ∈ (lex broken).tokens,
        token.piece ∈ traversal (parse broken).commands ∨
          IsPassedOver (parse broken).problems (lex broken).tokens token) ∧
      (parse clean).isClean = true ∧
      traversal (parse clean).commands =
        ((lex clean).tokens.filter fun token =>
          !token.kind.endsLine).map Token.piece := by
  intro broken clean
  have brokenFits : broken.utf8ByteSize ≤ 1000000 := by decide +kernel
  have cleanFits : clean.utf8ByteSize ≤ 1000000 := by decide +kernel
  have isClean : (parse clean).isClean = true := by decide +kernel
  refine ⟨brokenFits, cleanFits, by decide +kernel, ?_, isClean, ?_⟩
  · exact (no_token_lost broken brokenFits).2.2.1
  · exact (no_token_lost clean cleanFits).2.2.2 isClean

end ScriptCompletion.Script
