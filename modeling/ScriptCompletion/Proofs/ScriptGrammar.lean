import ScriptCompletion.Proofs.LineLexing
import ScriptCompletion.Script.Parser

namespace ScriptCompletion.Script

/-!
# Nothing is wrong with the words of the grammar

A script is read without a problem if and only if its tokens are a word of the
grammar with no more nested blocks than are allowed.

The grammar is ambiguous: a word behind the arguments of a command is an argument
or the name of the next command.  The parser always takes it as an argument, and
loses no script by that, for a command may begin wherever one is being read.
-/

/-- The arguments of a command. -/
def AreArguments (kinds : List TokenKind) : Prop :=
  ∀ kind ∈ kinds, kind.isArgument = true

mutual

/-- The words of a script whose blocks are nested at most so deep. -/
inductive IsScript : Nat → List TokenKind → Prop where
  | nil {depth : Nat} :
      IsScript depth []
  | command {depth : Nat} {first rest : List TokenKind} :
      IsCommand depth first →
      IsScript depth rest →
      IsScript depth (first ++ rest)
  | newline {depth : Nat} {rest : List TokenKind} :
      IsScript depth rest →
      IsScript depth (.newline :: rest)

/-- The words of a command, with or without a block. -/
inductive IsCommand : Nat → List TokenKind → Prop where
  | plain {depth : Nat} {arguments : List TokenKind} :
      AreArguments arguments →
      IsCommand depth (.word :: arguments)
  | block {depth : Nat} {arguments inside : List TokenKind} :
      AreArguments arguments →
      IsScript depth inside →
      IsCommand (depth + 1)
        (.word :: arguments ++ [.opening, .newline] ++ inside ++ [.closing])

end

/-- Scripts can be put one behind the other. -/
theorem IsScript.append
    {depth : Nat}
    {first second : List TokenKind} :
    IsScript depth first →
    IsScript depth second →
    IsScript depth (first ++ second)
  | .nil, later =>
      later
  | .command isCommand rest, later => by
      rw [List.append_assoc]
      exact .command isCommand (rest.append later)
  | .newline rest, later =>
      .newline (rest.append later)

/-- One command is a script. -/
theorem IsCommand.isScript
    {depth : Nat}
    {kinds : List TokenKind}
    (isCommand : IsCommand depth kinds) :
    IsScript depth kinds := by
  have single := IsScript.command isCommand .nil
  rwa [List.append_nil] at single

/-!
## The parser accepts the words of the grammar
-/

/-- Whether a command can begin and a line can end at this place. -/
def ParserMode.isBetween : ParserMode → Bool
  | .idle | .header _ =>
      true
  | .opened _ _ | .skipping | .ended =>
      false

namespace Parser

/-- The parser has come to another place at which a command can begin, in the same
block and without a problem. -/
structure Accepts
    (parser next : Parser) : Prop where
  isBetween : next.mode.isBetween = true
  blocks : next.blocks = parser.blocks
  problems : next.problems = parser.problems

theorem Accepts.trans
    {first second third : Parser}
    (earlier : Accepts first second)
    (later : Accepts second third) :
    Accepts first third where
  isBetween := later.isBetween
  blocks := later.blocks.trans earlier.blocks
  problems := later.problems.trans earlier.problems

theorem accepts_newline
    {parser : Parser}
    (isBetween : parser.mode.isBetween = true)
    {token : Token}
    (isNewline : token.kind = .newline) :
    Accepts parser (parser.step token) := by
  cases mode : parser.mode with
  | idle =>
      simp only [step, mode, readIdle, isNewline]
      exact ⟨rfl, rfl, rfl⟩
  | header header =>
      simp only [step, mode, readHeader, readIdle, isNewline]
      exact ⟨rfl, rfl, rfl⟩
  | opened | skipping | ended =>
      simp [mode, ParserMode.isBetween] at isBetween

/-- A word begins a command or is an argument of the one that is being read. -/
theorem accepts_word
    {parser : Parser}
    (isBetween : parser.mode.isBetween = true)
    {token : Token}
    (isWord : token.kind = .word) :
    Accepts parser (parser.step token) ∧
      ∃ header, (parser.step token).mode = .header header := by
  cases mode : parser.mode with
  | idle =>
      simp only [step, mode, readIdle, isWord]
      exact ⟨⟨rfl, rfl, rfl⟩, _, rfl⟩
  | header header =>
      simp only [step, mode, readHeader, isWord]
      exact ⟨⟨rfl, rfl, rfl⟩, _, rfl⟩
  | opened | skipping | ended =>
      simp [mode, ParserMode.isBetween] at isBetween

theorem readHeader_of_isArgument
    (parser : Parser)
    (header : Header)
    {token : Token}
    (isArgument : token.kind.isArgument = true) :
    parser.readHeader header token =
      { parser with mode := .header (header.push token) } := by
  cases kind : token.kind <;>
    simp_all [readHeader, TokenKind.isArgument]

/-- Arguments are added to the command that is being read. -/
theorem accepts_arguments
    {parser : Parser}
    {header : Header}
    (mode : parser.mode = .header header)
    {tokens : List Token}
    (areArguments : AreArguments (tokens.map Token.kind)) :
    Accepts parser (tokens.foldl step parser) ∧
      ∃ header, (tokens.foldl step parser).mode = .header header := by
  induction tokens generalizing parser header with
  | nil =>
      exact ⟨⟨by simp [mode, ParserMode.isBetween], rfl, rfl⟩, header, mode⟩
  | cons token rest inductionHypothesis =>
      rw [List.map_cons, AreArguments, List.forall_mem_cons] at areArguments
      have read :
          parser.step token =
            { parser with mode := .header (header.push token) } := by
        rw [step, mode]
        exact readHeader_of_isArgument parser header areArguments.1
      have headerRead :
          (parser.step token).mode = .header (header.push token) := by
        rw [read]
      have later := inductionHypothesis headerRead areArguments.2
      have first : Accepts parser (parser.step token) := by
        rw [read]
        exact ⟨rfl, rfl, rfl⟩
      exact ⟨first.trans later.1, later.2⟩

/-- The name of a command and its arguments begin a command. -/
theorem accepts_heading
    {parser : Parser}
    (isBetween : parser.mode.isBetween = true)
    {name : Token}
    {arguments : List Token}
    (isWord : name.kind = .word)
    (areArguments : AreArguments (arguments.map Token.kind)) :
    Accepts parser ((name :: arguments).foldl step parser) ∧
      ∃ header, ((name :: arguments).foldl step parser).mode = .header header := by
  obtain ⟨first, header, mode⟩ := accepts_word isBetween isWord
  obtain ⟨second, final⟩ := accepts_arguments mode areArguments
  exact ⟨first.trans second, final⟩

theorem step_opening
    {parser : Parser}
    {header : Header}
    (mode : parser.mode = .header header)
    {token : Token}
    (isOpening : token.kind = .opening) :
    parser.step token =
      { parser with
        mode := .opened { header with stop := token.stop } token } := by
  simp only [step, mode, readHeader, isOpening]

/-- At the end of the line behind an opening parenthesis a block is entered. -/
theorem step_opened_newline
    {parser : Parser}
    {header : Header}
    {opening : Token}
    (mode : parser.mode = .opened header opening)
    {token : Token}
    (isNewline : token.kind = .newline) :
    parser.step token =
      { parser.enterBlock header opening with mode := .idle } := by
  simp [step, mode, readOpened, readIdle, isNewline, TokenKind.endsLine]

theorem enterBlock_of_lt
    {parser : Parser}
    (allowed : parser.blocks.length < maxBlockDepth)
    (header : Header)
    (opening : Token) :
    parser.enterBlock header opening =
      { parser with
        blocks := ⟨header, opening, parser.commands⟩ :: parser.blocks
        commands := [] } := by
  rw [enterBlock, if_neg (Nat.not_le.mpr allowed)]

/-- The line of a command that ends in an opening parenthesis leads into a block,
where one more is allowed. -/
theorem enters_block
    {parser : Parser}
    (isBetween : parser.mode.isBetween = true)
    {name opening newline : Token}
    {arguments : List Token}
    (isWord : name.kind = .word)
    (areArguments : AreArguments (arguments.map Token.kind))
    (isOpening : opening.kind = .opening)
    (isNewline : newline.kind = .newline)
    (allowed : parser.blocks.length < maxBlockDepth) :
    ∃ block next,
      (name :: arguments ++ [opening, newline]).foldl step parser = next ∧
        next.mode = .idle ∧
        next.blocks = block :: parser.blocks ∧
        next.problems = parser.problems := by
  obtain ⟨headingRead, header, mode⟩ :=
    accepts_heading isBetween isWord areArguments
  rw [List.foldl_append]
  generalize (name :: arguments).foldl step parser = read at headingRead mode
  have opened := step_opening mode isOpening
  have entered := step_opened_newline (congrArg Parser.mode opened) isNewline
  rw [opened, enterBlock_of_lt (by rwa [← headingRead.blocks] at allowed)]
    at entered
  rw [List.foldl_cons, List.foldl_cons, List.foldl_nil, opened, entered]
  exact
    ⟨_, _, rfl, rfl, congrArg _ headingRead.blocks, headingRead.problems⟩

/-- A closing parenthesis leads back out of the block. -/
theorem accepts_closing
    {parser outside : Parser}
    {block : OpenBlock}
    (isBetween : parser.mode.isBetween = true)
    (blocks : parser.blocks = block :: outside.blocks)
    (problems : parser.problems = outside.problems)
    {token : Token}
    (isClosing : token.kind = .closing) :
    Accepts outside (parser.step token) := by
  cases mode : parser.mode with
  | idle =>
      simp only [step, mode, readIdle, isClosing, blocks]
      exact ⟨rfl, rfl, problems⟩
  | header header =>
      simp only [step, mode, readHeader, readIdle, push, isClosing, blocks]
      exact ⟨rfl, rfl, problems⟩
  | opened | skipping | ended =>
      simp [mode, ParserMode.isBetween] at isBetween

end Parser

mutual

/-- The parser reads a script without a problem, where its blocks are allowed. -/
theorem IsScript.accepts
    {depth : Nat}
    {kinds : List TokenKind}
    {parser : Parser}
    {tokens : List Token}
    (areTokens : tokens.map Token.kind = kinds)
    (isBetween : parser.mode.isBetween = true)
    (allowed : parser.blocks.length + depth ≤ maxBlockDepth) :
    IsScript depth kinds →
    parser.Accepts (tokens.foldl Parser.step parser)
  | .nil => by
      rw [List.map_eq_nil_iff] at areTokens
      subst tokens
      exact ⟨isBetween, rfl, rfl⟩
  | .command isCommand rest => by
      obtain ⟨first, later, rfl, areFirst, areLater⟩ :=
        List.map_eq_append_iff.mp areTokens
      have commandRead := isCommand.accepts areFirst isBetween allowed
      rw [List.foldl_append]
      refine commandRead.trans (rest.accepts areLater commandRead.isBetween ?_)
      rwa [commandRead.blocks]
  | .newline rest => by
      obtain ⟨token, later, rfl, isNewline, areLater⟩ :=
        List.map_eq_cons_iff.mp areTokens
      have lineRead := Parser.accepts_newline isBetween isNewline
      refine lineRead.trans (rest.accepts areLater lineRead.isBetween ?_)
      rwa [lineRead.blocks]

/-- The parser reads a command without a problem, where its block is allowed. -/
theorem IsCommand.accepts
    {depth : Nat}
    {kinds : List TokenKind}
    {parser : Parser}
    {tokens : List Token}
    (areTokens : tokens.map Token.kind = kinds)
    (isBetween : parser.mode.isBetween = true)
    (allowed : parser.blocks.length + depth ≤ maxBlockDepth) :
    IsCommand depth kinds →
    parser.Accepts (tokens.foldl Parser.step parser)
  | .plain areArguments => by
      obtain ⟨name, arguments, rfl, isWord, rfl⟩ :=
        List.map_eq_cons_iff.mp areTokens
      exact (Parser.accepts_heading isBetween isWord areArguments).1
  | .block areArguments inside => by
      obtain ⟨front, last, rfl, areFront, isLast⟩ :=
        List.map_eq_append_iff.mp areTokens
      obtain ⟨beginning, content, rfl, areBeginning, areContent⟩ :=
        List.map_eq_append_iff.mp areFront
      obtain ⟨heading, line, rfl, isHeading, isLine⟩ :=
        List.map_eq_append_iff.mp areBeginning
      obtain ⟨name, arguments, rfl, isWord, rfl⟩ :=
        List.map_eq_cons_iff.mp isHeading
      obtain ⟨opening, newlines, rfl, isOpening, isRest⟩ :=
        List.map_eq_cons_iff.mp isLine
      obtain ⟨newline, rfl, isNewline⟩ := List.map_eq_singleton_iff.mp isRest
      obtain ⟨closing, rfl, isClosing⟩ := List.map_eq_singleton_iff.mp isLast
      obtain ⟨block, entered, isEntered, idle, blocks, problems⟩ :=
        Parser.enters_block isBetween isWord areArguments isOpening isNewline
          (by omega)
      have contentRead : entered.Accepts (content.foldl Parser.step entered) := by
        refine inside.accepts areContent (by rw [idle]; rfl) ?_
        rw [blocks, List.length_cons]
        omega
      rw [List.foldl_append, List.foldl_append, isEntered]
      exact Parser.accepts_closing contentRead.isBetween
        (contentRead.blocks.trans blocks) (contentRead.problems.trans problems)
        isClosing

end

/-!
## What the parser accepts is a word of the grammar
-/

/-- The words of a script in which so many blocks are still open, up to a place
where a command can begin. -/
inductive IsPartial : Nat → List TokenKind → Prop where
  | script {kinds : List TokenKind} :
      IsScript maxBlockDepth kinds →
      IsPartial 0 kinds
  | block {count : Nat} {before arguments inside : List TokenKind} :
      IsPartial count before →
      count < maxBlockDepth →
      AreArguments arguments →
      IsScript (maxBlockDepth - (count + 1)) inside →
      IsPartial (count + 1)
        (before ++ (.word :: arguments ++ [.opening, .newline]) ++ inside)

namespace IsPartial

variable {count : Nat} {kinds : List TokenKind}

/-- Further commands go into the innermost block. -/
theorem append
    (isPartial : IsPartial count kinds)
    {more : List TokenKind}
    (isScript : IsScript (maxBlockDepth - count) more) :
    IsPartial count (kinds ++ more) := by
  cases isPartial with
  | script first =>
      exact .script (first.append isScript)
  | block before allowed areArguments inside =>
      rw [List.append_assoc]
      exact .block before allowed areArguments (inside.append isScript)

/-- A block can begin where one more is allowed. -/
theorem enter
    (isPartial : IsPartial count kinds)
    (allowed : count < maxBlockDepth)
    {arguments : List TokenKind}
    (areArguments : AreArguments arguments) :
    IsPartial (count + 1)
      (kinds ++ (.word :: arguments ++ [.opening, .newline])) := by
  have entered := IsPartial.block isPartial allowed areArguments .nil
  rwa [List.append_nil] at entered

/-- The innermost block can end. -/
theorem leave
    (isPartial : IsPartial (count + 1) kinds) :
    IsPartial count (kinds ++ [.closing]) := by
  cases isPartial with
  | @block _ before arguments inside isBefore allowed areArguments isInside =>
      have sameDepth :
          maxBlockDepth - (count + 1) + 1 = maxBlockDepth - count := by
        omega
      have isCommand := IsCommand.block areArguments isInside
      rw [sameDepth] at isCommand
      have ended := isBefore.append isCommand.isScript
      simpa using ended

end IsPartial

/-- What was read of the command that the parser is in the middle of. -/
def ParserMode.IsLine : ParserMode → List TokenKind → Prop
  | .idle, line =>
      line = []
  | .header _, line =>
      ∃ arguments, AreArguments arguments ∧ line = .word :: arguments
  | .opened _ _, line =>
      ∃ arguments, AreArguments arguments ∧ line = .word :: arguments ++ [.opening]
  | .skipping, _ | .ended, _ =>
      False

namespace Parser

/-- The parser can have come to its place by reading words of a script. -/
def HasRead
    (parser : Parser)
    (kinds : List TokenKind) : Prop :=
  ∃ complete line,
    kinds = complete ++ line ∧
      IsPartial parser.blocks.length complete ∧
      parser.mode.IsLine line

/-- Between commands a token that is no problem is a word of the script. -/
theorem hasRead_readIdle
    {parser : Parser}
    {kinds : List TokenKind}
    (isPartial : IsPartial parser.blocks.length kinds)
    {token : Token}
    (notEnd : token.kind ≠ .endOfText)
    (clean : (parser.readIdle token).problems = []) :
    (parser.readIdle token).HasRead (kinds ++ [token.kind]) := by
  cases kind : token.kind with
  | endOfText =>
      exact absurd kind notEnd
  | newline =>
      simp only [readIdle, kind]
      exact ⟨_, [], by simp, isPartial.append (.newline .nil), rfl⟩
  | word =>
      simp only [readIdle, kind]
      exact ⟨kinds, _, rfl, isPartial, [], by simp [AreArguments], rfl⟩
  | closing =>
      cases blocks : parser.blocks with
      | nil =>
          simp [readIdle, kind, blocks, report] at clean
      | cons block outer =>
          rw [blocks, List.length_cons] at isPartial
          simp only [readIdle, kind, blocks]
          exact ⟨_, [], by simp, isPartial.leave, rfl⟩
  | _ =>
      simp [readIdle, kind, report] at clean

/-- In the line of a command a token that is no problem is a word of the
script. -/
theorem hasRead_readHeader
    {parser : Parser}
    {kinds arguments : List TokenKind}
    (isPartial : IsPartial parser.blocks.length kinds)
    (areArguments : AreArguments arguments)
    (header : Header)
    {token : Token}
    (notEnd : token.kind ≠ .endOfText)
    (clean : (parser.readHeader header token).problems = []) :
    (parser.readHeader header token).HasRead
      (kinds ++ .word :: arguments ++ [token.kind]) := by
  cases isArgument : token.kind.isArgument with
  | true =>
      rw [readHeader_of_isArgument parser header isArgument]
      refine ⟨kinds, .word :: (arguments ++ [token.kind]), by simp, isPartial,
        arguments ++ [token.kind], ?_, rfl⟩
      simpa [AreArguments, or_imp, forall_and, isArgument] using areArguments
  | false =>
      -- A token that ends the command is read as one between commands.
      have ended :
          IsPartial (parser.push (header.toCommand none)).blocks.length
            (kinds ++ .word :: arguments) :=
        isPartial.append (IsCommand.plain areArguments).isScript
      have atEnd
          (ends :
            parser.readHeader header token =
              (parser.push (header.toCommand none)).readIdle token) :
          (parser.readHeader header token).HasRead
            (kinds ++ .word :: arguments ++ [token.kind]) := by
        rw [ends] at clean ⊢
        exact hasRead_readIdle ended notEnd clean
      cases kind : token.kind with
      | newline | closing =>
          rw [← kind]
          exact atEnd (by simp only [readHeader, kind])
      | opening =>
          simp only [readHeader, kind]
          exact ⟨kinds, _, List.append_assoc .., isPartial, arguments,
            areArguments, rfl⟩
      | endOfText =>
          exact absurd kind notEnd
      | _ =>
          simp [kind, TokenKind.isArgument] at isArgument

theorem problems_report
    (parser : Parser)
    (cause : Cause)
    (token : Token) :
    parser.problems <:+ (parser.report cause token).problems :=
  List.suffix_cons ..

theorem problems_readIdle
    (parser : Parser)
    (token : Token) :
    parser.problems <:+ (parser.readIdle token).problems := by
  unfold readIdle
  split
  · exact List.suffix_refl _
  · exact List.suffix_refl _
  · split
    · exact problems_report ..
    · exact List.suffix_refl _
  · exact List.suffix_refl _
  all_goals exact problems_report ..

theorem problems_readHeader
    (parser : Parser)
    (header : Header)
    (token : Token) :
    parser.problems <:+ (parser.readHeader header token).problems := by
  unfold readHeader
  split
  all_goals
    first
    | exact List.suffix_refl _
    | exact problems_readIdle (parser.push (header.toCommand none)) token

theorem problems_enterBlock
    (parser : Parser)
    (header : Header)
    (opening : Token) :
    parser.problems <:+ (parser.enterBlock header opening).problems := by
  unfold enterBlock
  split
  · exact problems_report ..
  · exact List.suffix_refl _

/-- Problems are only ever added. -/
theorem problems_step
    (parser : Parser)
    (token : Token) :
    parser.problems <:+ (parser.step token).problems := by
  unfold step
  split
  · exact problems_readIdle parser token
  · exact problems_readHeader parser _ token
  · unfold readOpened
    split
    · exact (problems_enterBlock parser _ _).trans (problems_readIdle _ token)
    · exact (problems_report ..).trans (problems_readHeader _ _ token)
  · split
    · exact problems_readIdle parser token
    · exact List.suffix_refl _
  · exact List.suffix_refl _

theorem problems_foldl_step
    (parser : Parser)
    (tokens : List Token) :
    parser.problems <:+ (tokens.foldl step parser).problems := by
  induction tokens generalizing parser with
  | nil =>
      exact List.suffix_refl _
  | cons token rest inductionHypothesis =>
      exact (problems_step parser token).trans (inductionHypothesis _)

theorem enterBlock_of_le
    {parser : Parser}
    (tooDeep : maxBlockDepth ≤ parser.blocks.length)
    (header : Header)
    (opening : Token) :
    (parser.enterBlock header opening).problems ≠ [] := by
  simp [enterBlock, tooDeep, report, push]

/-- Behind an opening parenthesis only the end of the line is no problem, and
that only where one more block is allowed. -/
theorem hasRead_opened
    {parser : Parser}
    {kinds arguments : List TokenKind}
    (isPartial : IsPartial parser.blocks.length kinds)
    (areArguments : AreArguments arguments)
    {header : Header}
    {opening : Token}
    (mode : parser.mode = .opened header opening)
    {token : Token}
    (notEnd : token.kind ≠ .endOfText)
    (clean : (parser.step token).problems = []) :
    (parser.step token).HasRead
      (kinds ++ (.word :: arguments ++ [.opening]) ++ [token.kind]) := by
  by_cases isNewline : token.kind = .newline
  · rw [step_opened_newline mode isNewline] at clean ⊢
    have allowed : parser.blocks.length < maxBlockDepth := by
      apply Nat.lt_of_not_le
      intro tooDeep
      exact enterBlock_of_le tooDeep header opening clean
    rw [enterBlock_of_lt allowed, isNewline]
    exact ⟨_, [], by simp, isPartial.enter allowed areArguments, rfl⟩
  · have inLine : token.kind.endsLine = false := by
      cases kind : token.kind <;> simp_all [TokenKind.endsLine]
    have refused :=
      problems_readHeader (parser.report .openingInsideLine opening) header token
    simp only [step, mode, readOpened, inLine, Bool.false_eq_true,
      ↓reduceIte] at clean
    rw [clean, List.suffix_nil] at refused
    cases refused

/-- A token that is no problem is a word of the script. -/
theorem HasRead.step
    {parser : Parser}
    {kinds : List TokenKind}
    (hasRead : parser.HasRead kinds)
    {token : Token}
    (notEnd : token.kind ≠ .endOfText)
    (clean : (parser.step token).problems = []) :
    (parser.step token).HasRead (kinds ++ [token.kind]) := by
  obtain ⟨complete, line, rfl, isPartial, isLine⟩ := hasRead
  cases mode : parser.mode with
  | idle =>
      rw [mode] at isLine
      cases isLine
      rw [List.append_nil]
      simp only [Parser.step, mode] at clean ⊢
      exact hasRead_readIdle isPartial notEnd clean
  | header header =>
      rw [mode] at isLine
      obtain ⟨arguments, areArguments, rfl⟩ := isLine
      simp only [Parser.step, mode] at clean ⊢
      exact hasRead_readHeader isPartial areArguments header notEnd clean
  | opened header opening =>
      rw [mode] at isLine
      obtain ⟨arguments, areArguments, rfl⟩ := isLine
      exact hasRead_opened isPartial areArguments mode notEnd clean
  | skipping | ended =>
      rw [mode] at isLine
      exact isLine.elim

/-- Tokens among which there is no problem are words of the script. -/
theorem HasRead.foldl_step
    {parser : Parser}
    {kinds : List TokenKind}
    (hasRead : parser.HasRead kinds)
    {tokens : List Token}
    (notEnd : ∀ token ∈ tokens, token.kind ≠ .endOfText)
    (clean : (tokens.foldl Parser.step parser).problems = []) :
    (tokens.foldl Parser.step parser).HasRead
      (kinds ++ tokens.map Token.kind) := by
  induction tokens generalizing parser kinds with
  | nil =>
      simpa using hasRead
  | cons token rest inductionHypothesis =>
      rw [List.forall_mem_cons] at notEnd
      have cleanNow : (parser.step token).problems = [] := by
        have added := problems_foldl_step (parser.step token) rest
        rw [List.foldl_cons] at clean
        rwa [clean, List.suffix_nil] at added
      have later :=
        inductionHypothesis (hasRead.step notEnd.1 cleanNow) notEnd.2 clean
      simpa using later

/-- Every block that is never closed is a problem. -/
theorem problems_leaveBlocks
    (parser : Parser)
    (stop : Position)
    (blocks : List OpenBlock) :
    (parser.leaveBlocks stop blocks).problems = [] ↔
      parser.problems = [] ∧ blocks = [] := by
  induction blocks generalizing parser with
  | nil =>
      simp [leaveBlocks]
  | cons block outer inductionHypothesis =>
      rw [leaveBlocks, inductionHypothesis]
      simp [report]

theorem problems_finish_of_ended
    {parser : Parser}
    (ended : parser.mode = .ended)
    (stop : Position) :
    (parser.finish stop).problems = [] ↔
      parser.problems = [] ∧ parser.blocks = [] := by
  have settled : parser.settle = { parser with mode := .ended } := by
    simp only [settle, ended]
  rw [finish, problems_leaveBlocks, settled]

/-- At the end of the text a command ends, and no block is left or entered. -/
theorem step_end
    {parser : Parser}
    (notOpened : ∀ header opening, parser.mode ≠ .opened header opening)
    {token : Token}
    (isEnd : token.kind = .endOfText) :
    (parser.step token).mode = .ended ∧
      (parser.step token).blocks = parser.blocks ∧
      (parser.step token).problems = parser.problems := by
  cases mode : parser.mode with
  | opened header opening =>
      exact absurd mode (notOpened header opening)
  | idle =>
      simp [step, mode, readIdle, isEnd]
  | header header =>
      simp [step, mode, readHeader, readIdle, push, isEnd]
  | skipping =>
      simp [step, mode, readIdle, isEnd, TokenKind.endsLine]
  | ended =>
      simp [step, mode]

theorem step_opened_end
    {parser : Parser}
    {header : Header}
    {opening : Token}
    (mode : parser.mode = .opened header opening)
    {token : Token}
    (isEnd : token.kind = .endOfText) :
    parser.step token =
      { parser.enterBlock header opening with mode := .ended } := by
  simp [step, mode, readOpened, readIdle, isEnd, TokenKind.endsLine]

/-- The end of the text is no problem exactly where no block is open and none
begins. -/
theorem problems_finish_step_end
    (parser : Parser)
    {token : Token}
    (isEnd : token.kind = .endOfText)
    (stop : Position) :
    ((parser.step token).finish stop).problems = [] ↔
      parser.problems = [] ∧ parser.blocks = [] ∧
        ∀ header opening, parser.mode ≠ .opened header opening := by
  by_cases isOpened : ∃ header opening, parser.mode = .opened header opening
  · obtain ⟨header, opening, mode⟩ := isOpened
    rw [step_opened_end mode isEnd, problems_finish_of_ended rfl]
    constructor
    · rintro ⟨clean, noBlocks⟩
      by_cases tooDeep : maxBlockDepth ≤ parser.blocks.length
      · exact absurd clean (enterBlock_of_le tooDeep header opening)
      · rw [enterBlock_of_lt (Nat.lt_of_not_le tooDeep)] at noBlocks
        cases noBlocks
    · rintro ⟨-, -, notOpened⟩
      exact absurd mode (notOpened header opening)
  · have notOpened : ∀ header opening, parser.mode ≠ .opened header opening :=
      fun header opening mode => isOpened ⟨header, opening, mode⟩
    obtain ⟨ended, blocks, problems⟩ := step_end notOpened isEnd
    rw [problems_finish_of_ended ended, blocks, problems]
    simp [notOpened]

/-- Where no block is open and none begins, a script was read. -/
theorem HasRead.isScript
    {parser : Parser}
    {kinds : List TokenKind}
    (hasRead : parser.HasRead kinds)
    (noBlocks : parser.blocks = [])
    (notOpened : ∀ header opening, parser.mode ≠ .opened header opening) :
    IsScript maxBlockDepth kinds := by
  obtain ⟨complete, line, rfl, isPartial, isLine⟩ := hasRead
  rw [noBlocks, List.length_nil] at isPartial
  cases isPartial with
  | script isComplete =>
      refine isComplete.append ?_
      cases mode : parser.mode with
      | idle =>
          rw [mode] at isLine
          exact isLine ▸ .nil
      | header header =>
          rw [mode] at isLine
          obtain ⟨arguments, areArguments, rfl⟩ := isLine
          exact (IsCommand.plain areArguments).isScript
      | opened header opening =>
          exact absurd mode (notOpened header opening)
      | skipping | ended =>
          rw [mode] at isLine
          exact isLine.elim

end Parser

/-- Tokens up to the end of the text have no problem exactly if they are a
script. -/
theorem problems_parseTokens
    {tokens : List Token}
    (notEnd : ∀ token ∈ tokens, token.kind ≠ .endOfText)
    {last : Token}
    (isEnd : last.kind = .endOfText) :
    (parseTokens (tokens ++ [last])).problems = [] ↔
      IsScript maxBlockDepth (tokens.map Token.kind) := by
  simp only [parseTokens, List.reverse_eq_nil_iff, List.foldl_append,
    List.foldl_cons, List.foldl_nil]
  rw [Parser.problems_finish_step_end _ isEnd]
  constructor
  · rintro ⟨clean, noBlocks, notOpened⟩
    have start : Parser.initial.HasRead [] :=
      ⟨[], [], rfl, .script .nil, rfl⟩
    exact (start.foldl_step notEnd clean).isScript noBlocks notOpened
  · intro isScript
    have accepted :
        Parser.initial.Accepts (tokens.foldl Parser.step Parser.initial) :=
      isScript.accepts rfl rfl (Nat.le_of_eq (Nat.zero_add _))
    refine ⟨accepted.problems, accepted.blocks, ?_⟩
    intro header opening mode
    have isBetween := accepted.isBetween
    rw [mode] at isBetween
    cases isBetween

/-!
## Texts
-/

/-- What the tokens before the end of the text are. -/
def Lexing.kinds (lexing : Lexing) : List TokenKind :=
  (lexing.tokens.map Token.kind).takeWhile fun kind => kind != .endOfText

/-- Only the last token is the end of the text. -/
theorem tokens_lexLines
    (number : Nat)
    (line : List Char)
    (later : List (List Char)) :
    ∃ tokens last,
      (lexLines number line later).tokens = tokens ++ [last] ∧
        last.kind = .endOfText ∧
        ∀ token ∈ tokens, token.kind ≠ .endOfText := by
  have onLine
      (number : Nat)
      (line : List Char) :
      ∀ token ∈ (lexLine number line).tokens, token.kind ≠ .endOfText :=
    (areOnLine_lexLine number line).ne_endOfText
  induction later generalizing number line with
  | nil =>
      exact ⟨_, textEnd number line, rfl, rfl, onLine number line⟩
  | cons next rest inductionHypothesis =>
      obtain ⟨tokens, last, shape, isEnd, notEnd⟩ :=
        inductionHypothesis (number + 1) next
      refine ⟨(lexLine number line).tokens ++ lineBreak number line :: tokens,
        last, ?_, isEnd, ?_⟩
      · simp [lexLines, shape]
      · intro token member
        rcases List.mem_append.mp member with isEarlier | isLater
        · exact onLine number line token isEarlier
        · rcases List.mem_cons.mp isLater with rfl | isBehind
          · exact fun isEnd => by cases isEnd
          · exact notEnd token isBehind

/-- The last token of a text is its end, and no other one is. -/
theorem tokens_lex (text : String) :
    ∃ tokens last,
      (lex text).tokens = tokens ++ [last] ∧
        last.kind = .endOfText ∧
        ∀ token ∈ tokens, token.kind ≠ .endOfText := by
  rw [lex_eq_lexLines]
  exact tokens_lexLines 0 _ _

/-- The tokens of a text have no problem exactly if those before its end are a
script. -/
theorem problems_parseTokens_lex (text : String) :
    (parseTokens (lex text).tokens).problems = [] ↔
      IsScript maxBlockDepth (lex text).kinds := by
  obtain ⟨tokens, last, shape, isEnd, notEnd⟩ := tokens_lex text
  have sameKinds : (lex text).kinds = tokens.map Token.kind := by
    rw [Lexing.kinds, shape, List.map_append, List.takeWhile_append_of_pos]
    · simp [isEnd]
    · simpa using notEnd
  rw [shape, sameKinds, problems_parseTokens notEnd isEnd]

/-- A text of allowed size is lexed, parsed, and its problems are sorted. -/
theorem parse_of_fits
    {text : String}
    (fits : text.utf8ByteSize ≤ maxBytes) :
    parse text =
      { commands := (parseTokens (lex text).tokens).commands
        problems :=
          sortProblems
            ((lex text).problems ++
              (parseTokens (lex text).tokens).problems) } := by
  rw [parse, if_neg (Nat.not_lt.mpr fits)]

theorem sortProblems_eq_nil_iff
    {problems : List Problem} :
    sortProblems problems = [] ↔ problems = [] := by
  have sameProblems := List.mergeSort_perm problems fun first second =>
    decide (first.position ≤ second.position)
  rw [← List.length_eq_zero_iff, ← List.length_eq_zero_iff, sortProblems,
    sameProblems.length_eq]

/-- A text of at most a million bytes is read without a problem if and only if
its tokens have none and are a script with at most 64 nested blocks. -/
theorem isClean_parse_iff_isScript
    (text : String)
    (fits : text.utf8ByteSize ≤ 1000000) :
    (parse text).isClean = true ↔
      (lex text).problems = [] ∧ IsScript 64 (lex text).kinds := by
  have notTooLarge : ¬ maxBytes < text.utf8ByteSize :=
    Nat.not_lt.mpr fits
  rw [Parsing.isClean, parse, if_neg notTooLarge, List.isEmpty_iff,
    sortProblems_eq_nil_iff, List.append_eq_nil_iff, problems_parseTokens_lex]
  rfl

theorem isClean_parse_iff_isScript_nested :
    let text := "load aragonos\nconnect 0x (\n  install $app [1] (\n  ) set $x 1)\n"
    text.utf8ByteSize ≤ 1000000 ∧
      (parse text).isClean = true ∧
      IsScript 64
        [.word, .word, .newline, .word, .word, .opening, .newline, .word,
          .variable, .array, .opening, .newline, .closing, .word, .variable,
          .word, .closing, .newline] := by
  intro text
  have fits : text.utf8ByteSize ≤ 1000000 := by decide +kernel
  have clean : (parse text).isClean = true := by decide +kernel
  have isScript := ((isClean_parse_iff_isScript text fits).mp clean).2
  have sameKinds :
      (lex text).kinds =
        [.word, .word, .newline, .word, .word, .opening, .newline, .word,
          .variable, .array, .opening, .newline, .closing, .word, .variable,
          .word, .closing, .newline] := by
    decide +kernel
  rw [sameKinds] at isScript
  exact ⟨fits, clean, isScript⟩

end ScriptCompletion.Script
