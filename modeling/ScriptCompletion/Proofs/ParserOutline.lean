import ScriptCompletion.Proofs.Outline
import ScriptCompletion.Script.Parser

namespace ScriptCompletion.Script

/-!
# The parser writes the outline from top to bottom

The commands and open blocks of a parser have an outline too, and every token
adds events at its end: the heading of a command when its line ends, and the end
of a block at its closing parenthesis.  What has been added is never changed, so
later tokens cannot touch it.

When tokens come line by line, so do the events.
-/

namespace Header

/-- The heading of the command that the header begins. -/
def heading
    (header : Header)
    (opens : Bool) : Command where
  qualifier := (splitQualifier header.name.value).1
  name := (splitQualifier header.name.value).2
  arguments := header.arguments.reverse
  range := some ⟨header.name.start, header.name.start⟩
  nameRange := some header.name.span
  block := if opens then some ⟨[], none, false⟩ else none

@[simp]
theorem heading_toCommand
    (header : Header)
    (block : Option (Block Command)) :
    (header.toCommand block).heading = header.heading block.isSome := by
  cases block <;> rfl

@[simp]
theorem line?_visit_heading
    (header : Header)
    (opens : Bool) :
    (Event.visit (header.heading opens)).line? = some header.name.line :=
  rfl

end Header

/-- What was met before the innermost of the open blocks began. -/
def OpenBlock.outlineBefore : List OpenBlock → List Event
  | [] =>
      []
  | block :: outer =>
      outlineBefore outer ++
        (outline block.earlier.reverse ++
          [.visit (block.header.heading true)])

/-- The name of the command that is being read. -/
def ParserMode.pending? : ParserMode → Option Token
  | .header current | .opened current _ =>
      some current.name
  | .idle | .skipping | .ended =>
      none

namespace Parser

/-- What was met so far, apart from the command that is being read. -/
def outline (parser : Parser) : List Event :=
  OpenBlock.outlineBefore parser.blocks ++
    Script.outline parser.commands.reverse

/-- Adding a command adds its outline. -/
theorem outline_push
    (parser : Parser)
    (command : Command) :
    (parser.push command).outline =
      parser.outline ++ Script.outline [command] := by
  simp [outline, push, outline_append]

/-- A command without a block adds its heading. -/
theorem outline_push_header
    (parser : Parser)
    (header : Header) :
    (parser.push (header.toCommand none)).outline =
      parser.outline ++ [.visit (header.heading false)] := by
  have plain : (header.toCommand none).block = none := rfl
  rw [outline_push, outline_plain plain]
  simp

/-- Leaving a block adds its end. -/
theorem outline_leaveBlock
    {parser : Parser}
    {block : OpenBlock}
    {outer : List OpenBlock}
    (opened : parser.blocks = block :: outer)
    (stop : Position)
    (closed : Bool) :
    (parser.leaveBlock block outer stop closed).outline =
      parser.outline ++
        [.close (some ⟨block.opening.start, stop⟩) closed] := by
  have opens :
      (block.header.toCommand
        (some
          { commands := parser.commands.reverse
            range := some ⟨block.opening.start, stop⟩
            closed := closed })).block =
        some
          { commands := parser.commands.reverse
            range := some ⟨block.opening.start, stop⟩
            closed := closed } :=
    rfl
  simp [outline, leaveBlock, opened, OpenBlock.outlineBefore,
    outline_append, outline_block opens]

/-- Entering a block adds the heading of its command, also when too many are
open. -/
theorem outline_enterBlock
    (parser : Parser)
    (header : Header)
    (opening : Token) :
    (parser.enterBlock header opening).outline =
      parser.outline ++
        [.visit
          (header.heading (decide (parser.blocks.length < maxBlockDepth)))] := by
  unfold enterBlock
  by_cases tooDeep : maxBlockDepth ≤ parser.blocks.length
  · have notFree : ¬ parser.blocks.length < maxBlockDepth := by
      omega
    simp only [tooDeep, ↓reduceIte, notFree, decide_false]
    exact outline_push_header (parser.report .nestedTooDeep opening) header
  · have free : parser.blocks.length < maxBlockDepth := by
      omega
    simp [outline, tooDeep, free, OpenBlock.outlineBefore]

/-- What a token between commands adds. -/
def idleEvents
    (parser : Parser)
    (token : Token) : List Event :=
  match token.kind, parser.blocks with
  | .closing, block :: _ =>
      [.close (some ⟨block.opening.start, token.stop⟩) true]
  | _, _ =>
      []

/-- What a token in the line of a command adds. -/
def headerEvents
    (parser : Parser)
    (header : Header)
    (token : Token) : List Event :=
  match token.kind with
  | .newline | .closing | .endOfText =>
      .visit (header.heading false) :: parser.idleEvents token
  | .word | .variable | .helper | .string | .array | .opening =>
      []

/-- What a token adds. -/
def events
    (parser : Parser)
    (token : Token) : List Event :=
  match parser.mode with
  | .idle =>
      parser.idleEvents token
  | .header header =>
      parser.headerEvents header token
  | .opened header _ =>
      if token.kind.endsLine then
        [.visit
          (header.heading (decide (parser.blocks.length < maxBlockDepth)))]
      else
        parser.headerEvents header token
  | .skipping | .ended =>
      []

/-- A token at the end of a line adds nothing between commands. -/
theorem idleEvents_of_endsLine
    {token : Token}
    (ends : token.kind.endsLine = true)
    (parser : Parser) :
    parser.idleEvents token = [] := by
  cases kind : token.kind <;>
    simp [TokenKind.endsLine, kind] at ends <;>
    simp [idleEvents, kind]

theorem outline_readIdle
    (parser : Parser)
    (token : Token) :
    (parser.readIdle token).outline =
      parser.outline ++ parser.idleEvents token := by
  cases kind : token.kind with
  | closing =>
      cases opened : parser.blocks with
      | nil =>
          simp [readIdle, idleEvents, kind, opened, outline, report]
      | cons block outer =>
          simp only [readIdle, idleEvents, kind, opened]
          exact outline_leaveBlock opened token.stop true
  | _ =>
      simp [readIdle, idleEvents, kind, outline, report]

theorem outline_readHeader
    (parser : Parser)
    (header : Header)
    (token : Token) :
    (parser.readHeader header token).outline =
      parser.outline ++ parser.headerEvents header token := by
  have finished :
      ((parser.push (header.toCommand none)).readIdle token).outline =
        parser.outline ++
          .visit (header.heading false) :: parser.idleEvents token := by
    have sameEvents :
        (parser.push (header.toCommand none)).idleEvents token =
          parser.idleEvents token :=
      rfl
    rw [outline_readIdle, outline_push_header, sameEvents]
    simp
  cases kind : token.kind with
  | newline | closing | endOfText =>
      simpa [readHeader, headerEvents, kind] using finished
  | _ =>
      simp [readHeader, headerEvents, kind, outline]

/-- Reading a token adds its events at the end of the outline. -/
theorem outline_step
    (parser : Parser)
    (token : Token) :
    (parser.step token).outline = parser.outline ++ parser.events token := by
  cases mode : parser.mode with
  | idle =>
      simpa [step, events, mode] using outline_readIdle parser token
  | header header =>
      simpa [step, events, mode] using outline_readHeader parser header token
  | opened header opening =>
      by_cases ends : token.kind.endsLine = true
      · simp only [step, events, mode, readOpened, ends, ↓reduceIte]
        rw [outline_readIdle, outline_enterBlock,
          idleEvents_of_endsLine ends, List.append_nil]
      · simp only [step, events, mode, readOpened, ends]
        exact outline_readHeader
          (parser.report .openingInsideLine opening) header token
  | skipping =>
      by_cases ends : token.kind.endsLine = true
      · simp only [step, events, mode, ends, ↓reduceIte]
        rw [outline_readIdle, idleEvents_of_endsLine ends]
      · simp [step, events, mode, ends]
  | ended =>
      simp [step, events, mode]

theorem mem_idleEvents
    {parser : Parser}
    {token : Token}
    {event : Event}
    (member : event ∈ parser.idleEvents token) :
    token.kind = .closing ∧ event.line? = some token.line := by
  unfold idleEvents at member
  split at member
  · rename_i block outer isClosing opened
    simp only [List.mem_singleton] at member
    subst event
    exact ⟨isClosing, rfl⟩
  · cases member

theorem mem_headerEvents
    {parser : Parser}
    {header : Header}
    {token : Token}
    {event : Event}
    (member : event ∈ parser.headerEvents header token) :
    event.line? = some header.name.line ∨
      (token.kind = .closing ∧ event.line? = some token.line) := by
  have finished
      (inList :
        event ∈ .visit (header.heading false) :: parser.idleEvents token) :
      event.line? = some header.name.line ∨
        (token.kind = .closing ∧ event.line? = some token.line) := by
    rcases List.mem_cons.mp inList with isVisit | isIdle
    · subst event
      exact .inl (header.line?_visit_heading false)
    · exact .inr (mem_idleEvents isIdle)
  unfold headerEvents at member
  split at member
  · exact finished member
  · exact finished member
  · exact finished member
  all_goals cases member

/-- An event is on the line of the command that was being read, or closes a
block on the line of the token. -/
theorem mem_events
    {parser : Parser}
    {token : Token}
    {event : Event}
    (member : event ∈ parser.events token) :
    (∃ name,
      parser.mode.pending? = some name ∧
        event.line? = some name.line) ∨
    (token.kind = .closing ∧ event.line? = some token.line) := by
  unfold events at member
  cases mode : parser.mode with
  | idle =>
      simp only [mode] at member
      exact .inr (mem_idleEvents member)
  | header current =>
      simp only [mode] at member
      rcases mem_headerEvents member with isVisit | isClose
      · exact .inl ⟨current.name, rfl, isVisit⟩
      · exact .inr isClose
  | opened current opening =>
      simp only [mode] at member
      split at member
      · simp only [List.mem_singleton] at member
        subst event
        exact .inl ⟨current.name, rfl, current.line?_visit_heading _⟩
      · rcases mem_headerEvents member with isVisit | isClose
        · exact .inl ⟨current.name, rfl, isVisit⟩
        · exact .inr isClose
  | skipping | ended =>
      simp [mode] at member

/-- The events of one token are in the order of their lines. -/
theorem events_sorted
    {parser : Parser}
    {token : Token}
    (notLater :
      ∀ name,
        parser.mode.pending? = some name →
        name.line ≤ token.line) :
    (parser.events token).Pairwise Event.Precedes := by
  have idleSorted :
      (parser.idleEvents token).Pairwise Event.Precedes := by
    unfold idleEvents
    split <;> simp
  have headerSorted
      {header : Header}
      (before : header.name.line ≤ token.line) :
      (parser.headerEvents header token).Pairwise Event.Precedes := by
    have finished :
        (.visit (header.heading false) ::
          parser.idleEvents token).Pairwise Event.Precedes := by
      rw [List.pairwise_cons]
      refine ⟨?_, idleSorted⟩
      intro event member line isLine
      rw [(mem_idleEvents member).2, Option.some.injEq] at isLine
      subst line
      exact ⟨header.name.line, rfl, before⟩
    unfold headerEvents
    split
    · exact finished
    · exact finished
    · exact finished
    all_goals exact .nil
  unfold events
  cases mode : parser.mode with
  | idle =>
      exact idleSorted
  | header current =>
      exact headerSorted (notLater current.name (by rw [mode]; rfl))
  | opened current opening =>
      simp only
      split
      · simp
      · exact headerSorted (notLater current.name (by rw [mode]; rfl))
  | skipping | ended =>
      exact .nil

/-- Between commands a word starts a new one, and nothing else does. -/
theorem pending?_readIdle
    {parser : Parser}
    {token name : Token}
    (pending : (parser.readIdle token).mode.pending? = some name) :
    token.kind = .word ∧ name = token := by
  cases kind : token.kind with
  | word =>
      simp only [readIdle, kind, ParserMode.pending?, Header.ofName,
        Option.some.injEq] at pending
      exact ⟨rfl, pending.symm⟩
  | closing =>
      cases opened : parser.blocks <;>
        simp [readIdle, kind, opened, ParserMode.pending?] at pending
  | _ =>
      simp [readIdle, kind, ParserMode.pending?] at pending

/-- A command that is being read stays so as long as its tokens add nothing. -/
theorem pending?_readHeader
    {parser : Parser}
    {header : Header}
    {token name : Token}
    (pending : (parser.readHeader header token).mode.pending? = some name) :
    parser.headerEvents header token = [] ∧ name = header.name := by
  have notIdle
      (kind : token.kind ≠ .word)
      (idle :
        ((parser.push (header.toCommand none)).readIdle token).mode.pending? =
          some name) :
      False :=
    kind (pending?_readIdle idle).1
  cases kind : token.kind with
  | newline | closing | endOfText =>
      simp only [readHeader, kind] at pending
      exact (notIdle (by simp [kind]) pending).elim
  | _ =>
      simp only [readHeader, kind, ParserMode.pending?, Header.push,
        Option.some.injEq] at pending
      simp [headerEvents, kind, pending]

/-- A command is being read only after a token that adds nothing. -/
theorem pending?_step
    {parser : Parser}
    {token name : Token}
    (pending : (parser.step token).mode.pending? = some name) :
    parser.events token = [] ∧
      (parser.mode.pending? = some name ∨
        (token.kind = .word ∧ name = token)) := by
  cases mode : parser.mode with
  | idle =>
      simp only [step, mode] at pending
      obtain ⟨isWord, isToken⟩ := pending?_readIdle pending
      simp [events, mode, idleEvents, isWord, isToken]
  | header current =>
      simp only [step, mode] at pending
      obtain ⟨nothing, sameName⟩ := pending?_readHeader pending
      simp [events, mode, nothing, ParserMode.pending?, sameName]
  | opened current opening =>
      by_cases ends : token.kind.endsLine = true
      · simp only [step, mode, readOpened, ends, ↓reduceIte] at pending
        obtain ⟨isWord, -⟩ := pending?_readIdle pending
        simp [isWord, TokenKind.endsLine] at ends
      · simp only [step, mode, readOpened, ends] at pending
        obtain ⟨nothing, sameName⟩ := pending?_readHeader pending
        have sameEvents :
            (parser.report .openingInsideLine opening).headerEvents current
                token =
              parser.headerEvents current token :=
          rfl
        rw [sameEvents] at nothing
        simp [events, mode, ends, nothing, ParserMode.pending?, sameName]
  | skipping =>
      by_cases ends : token.kind.endsLine = true
      · simp only [step, mode, ends, ↓reduceIte] at pending
        obtain ⟨isWord, -⟩ := pending?_readIdle pending
        simp [isWord, TokenKind.endsLine] at ends
      · simp [step, mode, ends, ParserMode.pending?] at pending
  | ended =>
      simp [step, mode, ParserMode.pending?] at pending

end Parser

end ScriptCompletion.Script
