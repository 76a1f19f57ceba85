import ScriptCompletion.Proofs.TokenText
import ScriptCompletion.Script.Parser

namespace ScriptCompletion.Script

/-!
# What the stack of a parser keeps

The open blocks of a parser and the commands of the innermost one change in three
ways only: a command without a block is added, a block is entered where one more
is allowed, and the innermost block is left.  A property that all three keep is
kept by every token and holds at the end.

The commands are made from headers, and the header that is being read grows by
tokens of its own line: a line feed ends it.
-/

/-- The header of the command that is being read. -/
def ParserMode.header? : ParserMode → Option Header
  | .header current | .opened current _ =>
      some current
  | .idle | .skipping | .ended =>
      none

/-- Whether the arguments of a header are tokens of the line of its name. -/
def Header.IsOnLine (header : Header) : Prop :=
  ∃ tokens : List Token,
    header.arguments = tokens.map Argument.ofToken ∧
      ∀ token ∈ tokens, token.line = header.name.line

namespace Header

theorem isOnLine_ofName (token : Token) :
    (ofName token).IsOnLine :=
  ⟨[], rfl, by simp⟩

theorem IsOnLine.push
    {header : Header}
    (isOnLine : header.IsOnLine)
    {token : Token}
    (sameLine : token.line = header.name.line) :
    (header.push token).IsOnLine := by
  obtain ⟨tokens, shape, onLine⟩ := isOnLine
  refine ⟨token :: tokens, by simp [Header.push, shape], ?_⟩
  rw [List.forall_mem_cons]
  exact ⟨sameLine, onLine⟩

end Header

namespace Parser

/-- Between commands a word begins a header, and nothing else does. -/
theorem header?_readIdle
    {parser : Parser}
    {token : Token}
    {header : Header}
    (isHeader : (parser.readIdle token).mode.header? = some header) :
    token.kind.endsLine = false ∧ header = .ofName token := by
  cases kind : token.kind with
  | word =>
      simp only [readIdle, kind, ParserMode.header?, Option.some.injEq] at isHeader
      exact ⟨rfl, isHeader.symm⟩
  | closing =>
      cases opened : parser.blocks <;>
        simp [readIdle, kind, opened, ParserMode.header?] at isHeader
  | _ =>
      simp [readIdle, kind, ParserMode.header?] at isHeader

/-- In the line of a command a header grows by an argument or ends at a
parenthesis. -/
theorem header?_readHeader
    {parser : Parser}
    {old header : Header}
    {token : Token}
    (isHeader : (parser.readHeader old token).mode.header? = some header) :
    token.kind.endsLine = false ∧
      (header = .ofName token ∨ header = old.push token ∨
        header = { old with stop := token.stop }) := by
  have ended
      (isIdle :
        ((parser.push (old.toCommand none)).readIdle token).mode.header? =
          some header) :
      token.kind.endsLine = false ∧
        (header = .ofName token ∨ header = old.push token ∨
          header = { old with stop := token.stop }) := by
    obtain ⟨inside, isName⟩ := header?_readIdle isIdle
    exact ⟨inside, .inl isName⟩
  cases kind : token.kind with
  | newline | closing | endOfText =>
      rw [← kind]
      exact ended (by simpa only [readHeader, kind] using isHeader)
  | opening =>
      simp only [readHeader, kind, ParserMode.header?,
        Option.some.injEq] at isHeader
      exact ⟨rfl, .inr (.inr isHeader.symm)⟩
  | _ =>
      simp only [readHeader, kind, ParserMode.header?,
        Option.some.injEq] at isHeader
      exact ⟨rfl, .inr (.inl isHeader.symm)⟩

/-- A header that is being read was begun by the token or grew by it, inside a
line. -/
theorem header?_step
    {parser : Parser}
    {token : Token}
    {header : Header}
    (isHeader : (parser.step token).mode.header? = some header) :
    token.kind.endsLine = false ∧
      (header = .ofName token ∨
        ∃ old,
          parser.mode.header? = some old ∧
            (header = old.push token ∨
              header = { old with stop := token.stop })) := by
  have fromIdle
      {current : Parser}
      (isIdle : (current.readIdle token).mode.header? = some header) :
      token.kind.endsLine = false ∧ header = .ofName token :=
    header?_readIdle isIdle
  have fromHeader
      {current : Parser}
      {old : Header}
      (isOld : parser.mode.header? = some old)
      (inLine : (current.readHeader old token).mode.header? = some header) :
      token.kind.endsLine = false ∧
        (header = .ofName token ∨
          ∃ old,
            parser.mode.header? = some old ∧
              (header = old.push token ∨
                header = { old with stop := token.stop })) := by
    obtain ⟨inside, isName | grown⟩ := header?_readHeader inLine
    · exact ⟨inside, .inl isName⟩
    · exact ⟨inside, .inr ⟨old, isOld, grown⟩⟩
  cases mode : parser.mode with
  | idle =>
      simp only [step, mode] at isHeader
      exact ⟨(fromIdle isHeader).1, .inl (fromIdle isHeader).2⟩
  | header current =>
      simp only [step, mode] at isHeader
      rw [← mode]
      exact fromHeader (by rw [mode]; rfl) isHeader
  | opened current opening =>
      cases ends : token.kind.endsLine with
      | true =>
          simp only [step, mode, readOpened, ends, ↓reduceIte] at isHeader
          rw [(fromIdle isHeader).1] at ends
          cases ends
      | false =>
          simp only [step, mode, readOpened, ends] at isHeader
          rw [← mode]
          exact ⟨rfl, (fromHeader (by rw [mode]; rfl) isHeader).2⟩
  | skipping =>
      cases ends : token.kind.endsLine with
      | true =>
          simp only [step, mode, ends, ↓reduceIte] at isHeader
          rw [(fromIdle isHeader).1] at ends
          cases ends
      | false =>
          simp [step, mode, ends, ParserMode.header?] at isHeader
  | ended =>
      simp [step, mode, ParserMode.header?] at isHeader

/-- Whether the header that is being read, if any, stands on the numbered line. -/
def ReadsOn
    (number : Nat)
    (parser : Parser) : Prop :=
  ∀ header,
    parser.mode.header? = some header →
    header.name.line = number ∧ header.IsOnLine

/-- A token of the line keeps the header on its line. -/
theorem ReadsOn.step
    {number : Nat}
    {parser : Parser}
    (readsOn : parser.ReadsOn number)
    {token : Token}
    (onLine : token.line = number) :
    (parser.step token).ReadsOn
      (if token.kind = .newline then number + 1 else number) := by
  intro header isHeader
  obtain ⟨inside, origin⟩ := header?_step isHeader
  have notNewline : token.kind ≠ .newline := by
    intro isNewline
    simp [isNewline, TokenKind.endsLine] at inside
  rw [if_neg notNewline]
  rcases origin with isName | ⟨old, isOld, isPushed | isStopped⟩
  · subst header
    exact ⟨onLine, Header.isOnLine_ofName token⟩
  · subst header
    obtain ⟨oldLine, isOnLine⟩ := readsOn old isOld
    exact ⟨oldLine, isOnLine.push (onLine.trans oldLine.symm)⟩
  · subst header
    obtain ⟨oldLine, isOnLine⟩ := readsOn old isOld
    exact ⟨oldLine, isOnLine⟩

end Parser

/-- A property of open blocks and the commands of the innermost one that is kept
whenever they change. -/
structure KeepsStack
    (holds : List OpenBlock → List Command → Prop) : Prop where
  push :
    ∀ {blocks commands} {header : Header},
      header.IsOnLine →
      holds blocks commands →
      holds blocks (header.toCommand none :: commands)
  enter :
    ∀ {blocks commands} {header : Header},
      header.IsOnLine →
      blocks.length < maxBlockDepth →
      holds blocks commands →
      ∀ opening, holds (⟨header, opening, commands⟩ :: blocks) []
  leave :
    ∀ {block outer commands},
      holds (block :: outer) commands →
      ∀ stop closed,
        holds outer
          (block.header.toCommand
            (some
              { commands := commands.reverse
                range := some ⟨block.opening.start, stop⟩
                closed := closed }) :: block.earlier)

namespace KeepsStack

variable
  {holds : List OpenBlock → List Command → Prop}
  {parser : Parser}

theorem readIdle
    (keeps : KeepsStack holds)
    (before : holds parser.blocks parser.commands)
    (token : Token) :
    holds (parser.readIdle token).blocks (parser.readIdle token).commands := by
  cases kind : token.kind with
  | closing =>
      cases opened : parser.blocks with
      | nil =>
          simpa [Parser.readIdle, kind, opened, Parser.report] using before
      | cons block outer =>
          rw [opened] at before
          simp only [Parser.readIdle, kind, opened]
          exact keeps.leave before token.stop true
  | _ =>
      simpa [Parser.readIdle, kind, Parser.report] using before

theorem readHeader
    (keeps : KeepsStack holds)
    {header : Header}
    (isOnLine : header.IsOnLine)
    (before : holds parser.blocks parser.commands)
    (token : Token) :
    holds (parser.readHeader header token).blocks
      (parser.readHeader header token).commands := by
  have pushed :
      holds (parser.push (header.toCommand none)).blocks
        (parser.push (header.toCommand none)).commands :=
    keeps.push isOnLine before
  cases kind : token.kind with
  | newline | closing | endOfText =>
      simpa only [Parser.readHeader, kind] using keeps.readIdle pushed token
  | _ =>
      simpa only [Parser.readHeader, kind] using before

theorem enterBlock
    (keeps : KeepsStack holds)
    {header : Header}
    (isOnLine : header.IsOnLine)
    (before : holds parser.blocks parser.commands)
    (opening : Token) :
    holds (parser.enterBlock header opening).blocks
      (parser.enterBlock header opening).commands := by
  unfold Parser.enterBlock
  split
  · exact keeps.push isOnLine before
  · rename_i allowed
    exact keeps.enter isOnLine (Nat.lt_of_not_le allowed) before opening

/-- Every token keeps the property. -/
theorem step
    (keeps : KeepsStack holds)
    {number : Nat}
    (readsOn : parser.ReadsOn number)
    (before : holds parser.blocks parser.commands)
    (token : Token) :
    holds (parser.step token).blocks (parser.step token).commands := by
  cases mode : parser.mode with
  | idle =>
      simpa only [Parser.step, mode] using keeps.readIdle before token
  | header header =>
      have isOnLine := (readsOn header (by rw [mode]; rfl)).2
      simpa only [Parser.step, mode] using
        keeps.readHeader isOnLine before token
  | opened header opening =>
      have isOnLine := (readsOn header (by rw [mode]; rfl)).2
      simp only [Parser.step, mode, Parser.readOpened]
      split
      · exact keeps.readIdle (keeps.enterBlock isOnLine before opening) token
      · have reported :
            holds (parser.report .openingInsideLine opening).blocks
              (parser.report .openingInsideLine opening).commands :=
          before
        exact keeps.readHeader isOnLine reported token
  | skipping =>
      simp only [Parser.step, mode]
      split
      · exact keeps.readIdle before token
      · exact before
  | ended =>
      simpa only [Parser.step, mode] using before

/-- Tokens that come line after line keep the property. -/
theorem foldl
    (keeps : KeepsStack holds)
    {number : Nat}
    (readsOn : parser.ReadsOn number)
    (before : holds parser.blocks parser.commands)
    {tokens : List Token}
    (consecutive : AreConsecutive number tokens) :
    holds (tokens.foldl Parser.step parser).blocks
        (tokens.foldl Parser.step parser).commands ∧
      ∃ last, (tokens.foldl Parser.step parser).ReadsOn last := by
  induction tokens generalizing number parser with
  | nil =>
      exact ⟨before, number, readsOn⟩
  | cons token rest inductionHypothesis =>
      exact inductionHypothesis (readsOn.step consecutive.1)
        (keeps.step readsOn before token) consecutive.2

theorem leaveBlocks
    (keeps : KeepsStack holds)
    {blocks : List OpenBlock}
    (before : holds blocks parser.commands)
    (stop : Position) :
    holds [] (parser.leaveBlocks stop blocks).commands := by
  induction blocks generalizing parser with
  | nil =>
      exact before
  | cons block outer inductionHypothesis =>
      have left :
          holds outer
            ((parser.leaveBlock block outer stop false).report
              .unclosedBlock block.opening).commands :=
        keeps.leave before stop false
      exact inductionHypothesis left

/-- The property holds at the end of the tokens. -/
theorem finish
    (keeps : KeepsStack holds)
    {number : Nat}
    (readsOn : parser.ReadsOn number)
    (before : holds parser.blocks parser.commands)
    (stop : Position) :
    holds [] (parser.finish stop).commands := by
  have settled : holds parser.settle.blocks parser.settle.commands := by
    cases mode : parser.mode with
    | idle | skipping | ended =>
        simpa only [Parser.settle, mode] using before
    | header header =>
        have isOnLine := (readsOn header (by rw [mode]; rfl)).2
        simp only [Parser.settle, mode]
        exact keeps.push isOnLine before
    | opened header opening =>
        have isOnLine := (readsOn header (by rw [mode]; rfl)).2
        simpa only [Parser.settle, mode] using
          keeps.enterBlock isOnLine before opening
  exact keeps.leaveBlocks settled stop

/-- A property that holds at the start and is kept holds of every script. -/
theorem parse
    (keeps : KeepsStack holds)
    (atStart : holds [] [])
    (text : String) :
    holds [] (Script.parse text).commands.reverse := by
  unfold Script.parse
  split
  · exact atStart
  · have nothing : Parser.initial.ReadsOn 0 := by
      intro header isHeader
      cases isHeader
    obtain ⟨kept, last, readsOn⟩ :=
      keeps.foldl nothing atStart (lex_consecutive text)
    simp only [parseTokens, List.reverse_reverse]
    exact keeps.finish readsOn kept _

end KeepsStack

end ScriptCompletion.Script
