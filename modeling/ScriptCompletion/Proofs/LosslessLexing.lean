import ScriptCompletion.Proofs.CharacterPlaces
import ScriptCompletion.Proofs.ScriptGrammar
import ScriptCompletion.Proofs.TokenText

namespace ScriptCompletion.Script

/-!
# Lexing loses nothing

Between tokens the lexer drops whitespace, and behind a `#` that stands between
tokens it drops the rest of the line.  All else it has read belongs to a token
or to the lexeme that is being read, at every character of a line.

So a text can be told from its tokens up to what was dropped: every token holds
the characters at its place, every line feed is a token, and a character that no
token holds is whitespace between tokens or part of a comment.
-/

/-- Whether a token can begin with the character. -/
def beginsToken (character : Char) : Bool :=
  !Text.isWhitespace character && character != '#'

/-- Tokens of a line that make up, with the whitespace between them, what stands
before a column. -/
structure AccountFor
    (line : List Char)
    (tokens : List Token)
    (reach : Nat) : Prop where
  inside :
    reach ≤ line.length
  accounted :
    ∀ {column character},
      column < reach →
      getElem? line column = some character →
      Text.isWhitespace character = true ∨
        ∃ token ∈ tokens,
          token.column ≤ column ∧ column < token.stopColumn
  bounded :
    ∀ token ∈ tokens, token.stopColumn ≤ reach
  begun :
    ∀ token ∈ tokens,
      ∃ character,
        getElem? line token.column = some character ∧
          beginsToken character = true

namespace AccountFor

variable {line : List Char} {tokens : List Token} {reach : Nat}

/-- What is written behind the tokens does not matter to them. -/
theorem append
    (account : AccountFor line tokens reach)
    (more : List Char) :
    AccountFor (line ++ more) tokens reach where
  inside := by
    have := account.inside
    rw [List.length_append]
    omega
  accounted := by
    intro column character before isCharacter
    have inLine : column < line.length :=
      Nat.lt_of_lt_of_le before account.inside
    rw [List.getElem?_append_left inLine] at isCharacter
    exact account.accounted before isCharacter
  bounded := account.bounded
  begun := by
    intro token member
    obtain ⟨character, isCharacter, begins⟩ := account.begun token member
    refine ⟨character, ?_, begins⟩
    rw [List.getElem?_append_left]
    · exact isCharacter
    · exact (List.getElem?_eq_some_iff.mp isCharacter).1

/-- Whitespace needs no token. -/
theorem blank
    (account : AccountFor line tokens line.length)
    {character : Char}
    (isBlank : Text.isWhitespace character = true) :
    AccountFor (line ++ [character]) tokens
      (line ++ [character]).length where
  inside := Nat.le_refl _
  accounted := by
    intro column own before isOwn
    rw [List.length_append, List.length_singleton] at before
    by_cases inLine : column < line.length
    · exact (account.append [character]).accounted inLine isOwn
    · have isLast : column = line.length := by
        omega
      subst column
      rw [List.getElem?_concat_length, Option.some.injEq] at isOwn
      exact .inl (isOwn ▸ isBlank)
  bounded := by
    intro token member
    have := account.bounded token member
    rw [List.length_append]
    omega
  begun := (account.append [character]).begun

/-- A token that begins where the others have ended makes up for what it
covers. -/
theorem emit
    {lexer : Lexer}
    {start stop : Nat}
    (account : AccountFor line lexer.tokens start)
    {character : Char}
    (isCharacter : getElem? line start = some character)
    (begins : beginsToken character = true)
    (filled : start < stop)
    (inside : stop ≤ line.length)
    (kind : TokenKind)
    (text : List Char) :
    AccountFor line (lexer.emit kind text start stop).tokens stop where
  inside := inside
  accounted := by
    intro column own before isOwn
    by_cases earlier : column < start
    · rcases account.accounted earlier isOwn with
        isBlank | ⟨token, member, covers⟩
      · exact .inl isBlank
      · exact .inr ⟨token, List.mem_cons_of_mem _ member, covers⟩
    · exact .inr ⟨_, List.mem_cons_self, Nat.le_of_not_lt earlier, before⟩
  bounded := by
    intro token member
    rcases List.mem_cons.mp member with isNew | isOld
    · subst token
      exact Nat.le_refl stop
    · have := account.bounded token isOld
      omega
  begun := by
    intro token member
    rcases List.mem_cons.mp member with isNew | isOld
    · subst token
      exact ⟨character, isCharacter, begins⟩
    · exact account.begun token isOld

end AccountFor

namespace Lexer

/-- What the lexer has done with the characters of its line so far. -/
structure Accounts
    (line : List Char)
    (lexer : Lexer) : Prop where
  column :
    lexer.column = line.length
  idle :
    lexer.mode = .idle →
    AccountFor line lexer.tokens line.length
  comment :
    lexer.mode = .comment →
    ∃ hash,
      getElem? line hash = some '#' ∧
        AccountFor line lexer.tokens hash
  reading :
    ∀ {lexeme start text},
      lexer.mode = .reading lexeme start text →
      AccountFor line lexer.tokens start ∧
        ∃ character,
          getElem? line start = some character ∧
            beginsToken character = true

namespace Accounts

variable {line : List Char} {lexer : Lexer}

/-- A lexeme that ends becomes a token, which makes up for what was read of it. -/
theorem interrupt_reading
    (accounts : lexer.Accounts line)
    {lexeme : Lexeme}
    {start : Nat}
    {text : List Char}
    (mode : lexer.mode = .reading lexeme start text) :
    lexer.interrupt.Accounts line := by
  obtain ⟨-, sameColumn, isIdle⟩ := interrupt_place lexer
  obtain ⟨account, character, isCharacter, begins⟩ := accounts.reading mode
  have filled : start < line.length :=
    (List.getElem?_eq_some_iff.mp isCharacter).1
  have recorded :=
    account.emit isCharacter begins filled (Nat.le_refl _) lexeme.kind
      text.reverse
  rw [← accounts.column] at recorded
  refine
    { column := sameColumn.trans accounts.column
      idle := fun _ => ?_
      comment := by simp [isIdle]
      reading := by simp [isIdle] }
  rw [← accounts.column]
  cases cause : lexeme.interruption <;>
    simpa [Lexer.interrupt, mode, report, cause] using recorded

/-- A character between lexemes is dropped, or begins a token. -/
theorem start
    (accounts : lexer.Accounts line)
    (isIdle : lexer.mode = .idle)
    (character : Char) :
    (lexer.start character).Accounts (line ++ [character]) := by
  have account := accounts.idle isIdle
  have further := account.append [character]
  have column : lexer.column + 1 = (line ++ [character]).length := by
    simp [accounts.column]
  have isLast : (line ++ [character])[lexer.column]? = some character := by
    rw [accounts.column, List.getElem?_concat_length]
  have bracket
      (begins : beginsToken character = true)
      (kind : TokenKind) :
      AccountFor (line ++ [character])
        (lexer.emit kind [character] lexer.column (lexer.column + 1)).tokens
        (line ++ [character]).length := by
    rw [← accounts.column] at further
    rw [← column]
    exact further.emit isLast begins (Nat.lt_succ_self _)
      (Nat.le_of_eq column) kind [character]
  unfold Lexer.start
  split
  · rename_i isBlank
    exact
      { column := column
        idle := fun _ => account.blank isBlank
        comment := by simp [isIdle]
        reading := by simp [isIdle] }
  · rename_i notBlank
    split
    · rename_i isHash
      rw [accounts.column, isHash] at isLast
      refine
        { column := column
          idle := by simp
          comment := fun _ => ⟨line.length, ?_, further⟩
          reading := by simp }
      rw [isHash]
      exact isLast
    · rename_i notHash
      have begins : beginsToken character = true := by
        simp [beginsToken, notBlank, notHash]
      split
      · exact
          { column := column
            idle := fun _ => bracket begins .opening
            comment := by simp [emit, isIdle]
            reading := by simp [emit, isIdle] }
      · split
        · exact
            { column := column
              idle := fun _ => bracket begins .closing
              comment := by simp [emit, isIdle]
              reading := by simp [emit, isIdle] }
        · refine
            { column := column
              idle := by simp
              comment := by simp
              reading := ?_ }
          intro lexeme start text isReading
          cases isReading
          rw [← accounts.column] at further
          exact ⟨further, character, isLast, begins⟩

/-- Every character of a line is dropped or kept. -/
theorem advance
    (accounts : lexer.Accounts line)
    (character : Char) :
    (lexer.advance character).Accounts (line ++ [character]) := by
  have column : lexer.column + 1 = (line ++ [character]).length := by
    simp [accounts.column]
  unfold Lexer.advance
  cases mode : lexer.mode with
  | idle =>
      exact accounts.start mode character
  | comment =>
      obtain ⟨hash, isHash, account⟩ := accounts.comment mode
      refine
        { column := column
          idle := by simp
          comment := fun _ => ⟨hash, ?_, account.append [character]⟩
          reading := by simp }
      rw [List.getElem?_append_left]
      · exact isHash
      · exact (List.getElem?_eq_some_iff.mp isHash).1
  | reading lexeme start text =>
      obtain ⟨account, first, isFirst, begins⟩ := accounts.reading mode
      have inLine : start < line.length :=
        (List.getElem?_eq_some_iff.mp isFirst).1
      have stillFirst : (line ++ [character])[start]? = some first := by
        rw [List.getElem?_append_left inLine, isFirst]
      have further := account.append [character]
      cases received : lexeme.receive character with
      | extended next =>
          simp only [received]
          refine
            { column := column
              idle := by simp
              comment := by simp
              reading := ?_ }
          intro other otherStart otherText isReading
          cases isReading
          exact ⟨further, first, stillFirst, begins⟩
      | completed =>
          simp only [received]
          refine
            { column := column
              idle := fun _ => ?_
              comment := by simp
              reading := by simp }
          rw [← column]
          refine further.emit stillFirst begins ?_ (Nat.le_of_eq column) _ _
          rw [accounts.column]
          exact Nat.lt_succ_of_lt inLine
      | refused =>
          simp only [received]
          exact (accounts.interrupt_reading mode).start
            (interrupt_place lexer).2.2 character

theorem foldl_advance
    (accounts : lexer.Accounts line)
    (more : List Char) :
    (more.foldl Lexer.advance lexer).Accounts (line ++ more) := by
  induction more generalizing line lexer with
  | nil =>
      simpa using accounts
  | cons character rest inductionHypothesis =>
      have later := inductionHypothesis (accounts.advance character)
      simpa using later

/-- At the end of a line the tokens make up for all that stands before its
comment, if it has one. -/
theorem interrupt
    (accounts : lexer.Accounts line) :
    ∃ reach,
      AccountFor line lexer.interrupt.tokens reach ∧
        (reach = line.length ∨ getElem? line reach = some '#') := by
  cases mode : lexer.mode with
  | idle =>
      refine ⟨line.length, ?_, .inl rfl⟩
      simpa [Lexer.interrupt, mode] using accounts.idle mode
  | comment =>
      obtain ⟨hash, isHash, account⟩ := accounts.comment mode
      refine ⟨hash, ?_, .inr isHash⟩
      simpa [Lexer.interrupt, mode] using account
  | reading lexeme start text =>
      have ended := accounts.interrupt_reading mode
      exact ⟨line.length, ended.idle (interrupt_place lexer).2.2, .inl rfl⟩

end Accounts

end Lexer

/-- The tokens of a line make up for all of it but whitespace and a comment. -/
theorem lexLine_accountFor
    (number : Nat)
    (line : List Char) :
    ∃ reach,
      AccountFor line (lexLine number line).tokens reach ∧
        (reach = line.length ∨ getElem? line reach = some '#') := by
  have nothing : AccountFor [] [] 0 :=
    ⟨Nat.le_refl 0, by simp, by simp, by simp⟩
  have start : (Lexer.onLine number).Accounts [] :=
    { column := rfl
      idle := fun _ => nothing
      comment := by simp [Lexer.onLine, Lexer.initial]
      reading := by simp [Lexer.onLine, Lexer.initial] }
  obtain ⟨reach, account, stops⟩ := (start.foldl_advance line).interrupt
  refine ⟨reach, ⟨account.inside, ?_, ?_, ?_⟩, stops⟩
  · intro column character before isCharacter
    simpa [lexLine] using account.accounted before isCharacter
  · simpa [lexLine] using account.bounded
  · simpa [lexLine] using account.begun

/-!
## What a line drops
-/

/-- Whether a token of the line can start at the column: none goes on there, and
what stands before it is whitespace or belongs to a token. -/
structure StartsAt
    (line : List Char)
    (tokens : List Token)
    (column : Nat) : Prop where
  unbroken :
    ∀ token ∈ tokens,
      token.column < column →
      token.stopColumn ≤ column
  accounted :
    ∀ {earlier character},
      earlier < column →
      getElem? line earlier = some character →
      Text.isWhitespace character = true ∨
        ∃ token ∈ tokens,
          token.column ≤ earlier ∧ earlier < token.stopColumn

namespace AccountFor

variable {line : List Char} {tokens : List Token} {reach : Nat}

/-- A token that covers a place where tokens start begins there. -/
theorem begins_of_startsAt
    (account : AccountFor line tokens reach)
    {column : Nat}
    {character : Char}
    (isCharacter : getElem? line column = some character)
    (starts : StartsAt line tokens column)
    (covered :
      ∃ token ∈ tokens, token.column ≤ column ∧ column < token.stopColumn) :
    beginsToken character = true := by
  obtain ⟨token, member, begun, goesOn⟩ := covered
  have isStart : token.column = column := by
    rcases Nat.lt_or_eq_of_le begun with earlier | isStart
    · have ended := starts.unbroken token member earlier
      omega
    · exact isStart
  obtain ⟨first, isFirst, begins⟩ := account.begun token member
  rw [isStart, isCharacter, Option.some.injEq] at isFirst
  exact isFirst ▸ begins

/-- What no token of a line covers is whitespace between tokens, or stands behind
a `#` at a place where tokens start. -/
theorem uncovered_iff
    (account : AccountFor line tokens reach)
    (stops : reach = line.length ∨ getElem? line reach = some '#')
    {column : Nat}
    {character : Char}
    (isCharacter : getElem? line column = some character) :
    (¬ ∃ token ∈ tokens, token.column ≤ column ∧ column < token.stopColumn) ↔
      Text.isWhitespace character = true ∧ StartsAt line tokens column ∨
        ∃ hash ≤ column,
          getElem? line hash = some '#' ∧ StartsAt line tokens hash := by
  constructor
  · intro uncovered
    by_cases before : column < reach
    · refine .inl ⟨?_, ?_, ?_⟩
      · exact (account.accounted before isCharacter).resolve_right uncovered
      · intro token member begun
        refine Nat.le_of_not_lt fun goesOn => ?_
        exact uncovered ⟨token, member, Nat.le_of_lt begun, goesOn⟩
      · intro earlier own isEarlier
        exact account.accounted (Nat.lt_trans isEarlier before)
    · have inLine : column < line.length :=
        (List.getElem?_eq_some_iff.mp isCharacter).1
      have isHash : getElem? line reach = some '#' :=
        stops.resolve_left (by omega)
      refine .inr ⟨reach, Nat.le_of_not_lt before, isHash, ?_, ?_⟩
      · exact fun token member _ => account.bounded token member
      · intro earlier own isEarlier
        exact account.accounted isEarlier
  · rintro (⟨isBlank, starts⟩ | ⟨hash, notBehind, isHash, starts⟩) covered
    · have begins :=
        account.begins_of_startsAt isCharacter starts covered
      simp [beginsToken, isBlank] at begins
    · have uncovered :
          ¬ ∃ token ∈ tokens,
            token.column ≤ hash ∧ hash < token.stopColumn := by
        intro covered
        have begins := account.begins_of_startsAt isHash starts covered
        simp [beginsToken] at begins
      -- The `#` is no whitespace either, so the tokens end before it.
      have ended : reach ≤ hash := by
        refine Nat.le_of_not_lt fun before => ?_
        rcases account.accounted before isHash with isBlank | isCovered
        · exact absurd isBlank (by decide)
        · exact uncovered isCovered
      obtain ⟨token, member, -, goesOn⟩ := covered
      have bounded := account.bounded token member
      omega

end AccountFor

/-!
## The tokens of numbered lines
-/

/-- The token behind a line: its line feed, or the end of the text. -/
def lineStop
    (number : Nat)
    (line : List Char)
    (followed : Bool) : Token :=
  if followed then
    lineBreak number line
  else
    textEnd number line

theorem column_lineStop
    (number : Nat)
    (line : List Char)
    (followed : Bool) :
    (lineStop number line followed).column = line.length := by
  cases followed <;> rfl

/-- A token of numbered lines stands on one of them. -/
theorem exists_line_of_mem_lexLines
    {number : Nat}
    {line : List Char}
    {later : List (List Char)}
    {token : Token}
    (member : token ∈ (lexLines number line later).tokens) :
    ∃ index own,
      (line :: later)[index]? = some own ∧
        token.line = number + index := by
  induction later generalizing number line with
  | nil =>
      simp only [lexLines, List.mem_append, List.mem_singleton] at member
      rcases member with inLine | isEnd
      · exact ⟨0, line, rfl, (areOnLine_lexLine number line token inLine).1⟩
      · exact ⟨0, line, rfl, by rw [isEnd]; rfl⟩
  | cons next rest inductionHypothesis =>
      simp only [lexLines, List.mem_append, List.mem_cons] at member
      rcases member with inLine | isBreak | isLater
      · exact ⟨0, line, rfl, (areOnLine_lexLine number line token inLine).1⟩
      · exact ⟨0, line, rfl, by rw [isBreak]; rfl⟩
      · obtain ⟨index, own, isOwn, onLine⟩ := inductionHypothesis isLater
        exact ⟨index + 1, own, by simpa using isOwn, by omega⟩

/-- The tokens on one of several numbered lines are its own and the one behind
it. -/
theorem mem_lexLines_iff
    {number : Nat}
    {line : List Char}
    {later : List (List Char)}
    {index : Nat}
    {own : List Char}
    (isOwn : (line :: later)[index]? = some own)
    {token : Token}
    (onLine : token.line = number + index) :
    token ∈ (lexLines number line later).tokens ↔
      token ∈ (lexLine (number + index) own).tokens ∨
        token =
          lineStop (number + index) own (decide (index < later.length)) := by
  induction later generalizing number line index with
  | nil =>
      cases index with
      | zero =>
          cases isOwn
          simp [lexLines, lineStop]
      | succ index =>
          cases isOwn
  | cons next rest inductionHypothesis =>
      simp only [lexLines, List.mem_append, List.mem_cons]
      cases index with
      | zero =>
          cases isOwn
          have notLater :
              token ∉ (lexLines (number + 1) next rest).tokens := by
            intro isLater
            have := le_line_of_mem_lexLines isLater
            omega
          simp [notLater, lineStop]
      | succ index =>
          have onLaterLine : token.line = number + 1 + index := by
            omega
          have sameLine : number + 1 + index = number + (index + 1) := by
            omega
          have notHere : token ∉ (lexLine number line).tokens := by
            intro inLine
            have := (areOnLine_lexLine number line token inLine).1
            omega
          have notBreak : token ≠ lineBreak number line := by
            rintro rfl
            have : number = number + (index + 1) := onLine
            omega
          have behind :=
            inductionHypothesis (by simpa using isOwn) onLaterLine
          rw [sameLine] at behind
          simp [notHere, notBreak, behind]

/-- Every token but the end of the text takes room. -/
theorem column_lt_of_ne_endOfText
    {number : Nat}
    {line : List Char}
    {later : List (List Char)}
    {token : Token}
    (member : token ∈ (lexLines number line later).tokens)
    (notEnd : token.kind ≠ .endOfText) :
    token.column < token.stopColumn := by
  obtain ⟨index, own, isOwn, onLine⟩ := exists_line_of_mem_lexLines member
  rcases (mem_lexLines_iff isOwn onLine).mp member with inLine | isStop
  · exact (lexLine_inOrder _ own).filled token (List.mem_reverse.mpr inLine)
  · subst token
    unfold lineStop at notEnd ⊢
    split
    · exact Nat.lt_succ_self _
    · rename_i isLast
      rw [if_neg isLast] at notEnd
      exact absurd rfl notEnd

/-- The value of a token is what stands at its place. -/
theorem value_of_mem_lexLines
    {number : Nat}
    {line : List Char}
    {later : List (List Char)}
    (noBreak : ∀ own ∈ line :: later, '\n' ∉ own)
    {token : Token}
    (member : token ∈ (lexLines number line later).tokens) :
    token.value =
        String.ofList
          (Text.heldBy token.span (Text.lineSpots number line later)) ∧
      token.stopColumn = token.column + token.value.length := by
  obtain ⟨index, own, isOwn, onLine⟩ := exists_line_of_mem_lexLines member
  have isSpan :
      token.span =
        .onLine (number + index) token.column token.stopColumn := by
    rw [← onLine]
    rfl
  rw [isSpan, Text.heldBy_lineSpots noBreak isOwn]
  rcases (mem_lexLines_iff isOwn onLine).mp member with inLine | rfl
  · have isText := isTextOf_of_mem_lexLine inLine
    refine ⟨?_, isText.stopColumn_eq⟩
    split
    · exact (isText.append ['\n']).value
    · exact isText.value
  · by_cases followed : index < later.length
    · have whole :
          ((own ++ ['\n']).take (own.length + 1)).drop own.length =
            ['\n'] := by
        rw [List.take_of_length_le (by simp), List.drop_left]
      simp only [lineStop, followed, decide_true, ↓reduceIte, lineBreak, whole]
      exact ⟨trivial, rfl⟩
    · simp [lineStop, followed, textEnd]

/-- The line feeds of numbered lines are tokens, in order. -/
theorem newlines_lexLines
    (number : Nat)
    {line : List Char}
    {later : List (List Char)}
    (noBreak : ∀ own ∈ line :: later, '\n' ∉ own) :
    (((lexLines number line later).tokens.filter fun token =>
        token.kind = .newline).map Token.start) =
      ((Text.lineSpots number line later).filter fun spot =>
        spot.character = '\n').map Text.Spot.position := by
  have noToken
      (number : Nat)
      (line : List Char) :
      ((lexLine number line).tokens.filter fun token =>
        token.kind = .newline) = [] := by
    rw [List.filter_eq_nil_iff]
    intro token inLine isNewline
    have inside := (areOnLine_lexLine number line token inLine).2
    rw [of_decide_eq_true isNewline] at inside
    cases inside
  have noSpot
      {line : List Char}
      (noBreakHere : '\n' ∉ line)
      (number : Nat) :
      ((Text.spotsFrom ⟨number, 0⟩ line).filter fun spot =>
        spot.character = '\n') = [] := by
    rw [List.filter_eq_nil_iff]
    intro spot inLine isBreak
    have isCharacter := ((Text.mem_spotsFrom_line noBreakHere).mp inLine).2.2
    rw [of_decide_eq_true isBreak] at isCharacter
    exact noBreakHere (List.mem_of_getElem? isCharacter)
  induction later generalizing number line with
  | nil =>
      have noBreakHere : '\n' ∉ line := noBreak line (by simp)
      simp [lexLines, Text.lineSpots_nil, noToken, noSpot noBreakHere, textEnd]
  | cons next rest inductionHypothesis =>
      obtain ⟨noBreakHere, noBreakLater⟩ := List.forall_mem_cons.mp noBreak
      have behind := inductionHypothesis (number + 1) noBreakLater
      simp [lexLines, Text.lineSpots_cons noBreakHere, noToken,
        noSpot noBreakHere, lineBreak, behind]
      rfl

/-!
## What a text drops
-/

theorem Token.holds_span_iff
    {token : Token}
    {position : Position} :
    token.span.Holds position ↔
      position.line = token.line ∧
        token.column ≤ position.column ∧
        position.column < token.stopColumn :=
  Span.holds_onLine_iff

/-- Whether some token holds a character at the position. -/
def IsCovered
    (tokens : List Token)
    (position : Position) : Prop :=
  ∃ token ∈ tokens, token.span.Holds position

/-- Whether a token can start at the position: none goes on there, and what
stands before it on its line is whitespace or belongs to a token. -/
structure IsTokenStart
    (tokens : List Token)
    (spots : List Text.Spot)
    (position : Position) : Prop where
  unbroken :
    ∀ token ∈ tokens,
      token.start < position →
      token.stop ≤ position
  accounted :
    ∀ spot ∈ spots,
      spot.position.line = position.line →
      spot.position < position →
      Text.isWhitespace spot.character = true ∨
        IsCovered tokens spot.position

/-- Whether the character is part of a comment: it does not stand before a `#` of
its line at which a token could start. -/
def IsComment
    (tokens : List Token)
    (spots : List Text.Spot)
    (spot : Text.Spot) : Prop :=
  ∃ hash ∈ spots,
    hash.character = '#' ∧
      hash.position.line = spot.position.line ∧
      hash.position ≤ spot.position ∧
      IsTokenStart tokens spots hash.position

/-- Tokens and characters of which those on one line are the line's own. -/
structure HaveLine
    (tokens : List Token)
    (spots : List Text.Spot)
    (number : Nat)
    (line : List Char)
    (followed : Bool) : Prop where
  noBreak :
    '\n' ∉ line
  tokens :
    ∀ {token : Token},
      token.line = number →
      (token ∈ tokens ↔
        token ∈ (lexLine number line).tokens ∨
          token = lineStop number line followed)
  spots :
    ∀ {spot : Text.Spot},
      spot.position.line = number →
      (spot ∈ spots ↔
        getElem? line spot.position.column = some spot.character ∨
          followed = true ∧
            spot.position.column = line.length ∧
            spot.character = '\n')

namespace HaveLine

variable {tokens : List Token} {spots : List Text.Spot} {number : Nat}
  {line : List Char} {followed : Bool}

/-- A character of the line is covered if a token of the line covers its
column. -/
theorem isCovered_iff
    (haveLine : HaveLine tokens spots number line followed)
    {column : Nat}
    (inLine : column < line.length) :
    IsCovered tokens ⟨number, column⟩ ↔
      ∃ token ∈ (lexLine number line).tokens,
        token.column ≤ column ∧ column < token.stopColumn := by
  constructor
  · rintro ⟨token, member, holds⟩
    obtain ⟨sameLine, begun, goesOn⟩ := Token.holds_span_iff.mp holds
    rcases (haveLine.tokens sameLine.symm).mp member with isOwn | rfl
    · exact ⟨token, isOwn, begun, goesOn⟩
    · rw [column_lineStop] at begun
      exact absurd begun (Nat.not_le.mpr inLine)
  · rintro ⟨token, isOwn, begun, goesOn⟩
    have onLine := (areOnLine_lexLine number line token isOwn).1
    exact ⟨token, (haveLine.tokens onLine).mpr (.inl isOwn),
      Token.holds_span_iff.mpr ⟨onLine.symm, begun, goesOn⟩⟩

/-- A token can start at a character of the line if one of the line can. -/
theorem isTokenStart_iff
    (haveLine : HaveLine tokens spots number line followed)
    {column : Nat}
    (inLine : column < line.length) :
    IsTokenStart tokens spots ⟨number, column⟩ ↔
      StartsAt line (lexLine number line).tokens column := by
  constructor
  · intro starts
    refine ⟨?_, ?_⟩
    · intro token isOwn begun
      have onLine := (areOnLine_lexLine number line token isOwn).1
      have ended :=
        starts.unbroken token ((haveLine.tokens onLine).mpr (.inl isOwn))
          (Position.lt_iff.mpr (.inr ⟨onLine, begun⟩))
      rcases Position.le_iff.mp ended with earlierLine | ⟨-, inTime⟩
      · exact absurd onLine (Nat.ne_of_lt earlierLine)
      · exact inTime
    · intro earlier character before isCharacter
      have inLineToo : earlier < line.length :=
        Nat.lt_trans before inLine
      rw [← haveLine.isCovered_iff inLineToo]
      exact starts.accounted ⟨⟨number, earlier⟩, character⟩
        ((haveLine.spots rfl).mpr (.inl isCharacter)) rfl
        (Position.lt_iff.mpr (.inr ⟨rfl, before⟩))
  · intro starts
    refine ⟨?_, ?_⟩
    · intro token member begun
      rcases Position.lt_iff.mp begun with earlierLine | ⟨sameLine, before⟩
      · exact Position.le_iff.mpr (.inl earlierLine)
      · rcases (haveLine.tokens sameLine).mp member with isOwn | rfl
        · exact Position.le_iff.mpr
            (.inr ⟨sameLine, starts.unbroken token isOwn before⟩)
        · have notBefore : ¬ line.length < column :=
            Nat.not_lt.mpr (Nat.le_of_lt inLine)
          exact absurd
            (column_lineStop number line followed ▸ before) notBefore
    · rintro ⟨⟨own, earlier⟩, character⟩ member sameLine before
      obtain rfl : own = number := sameLine
      have isBefore : earlier < column := by
        simpa [Position.lt_iff] using before
      have inLineToo : earlier < line.length :=
        Nat.lt_trans isBefore inLine
      rw [haveLine.isCovered_iff inLineToo]
      rcases (haveLine.spots rfl).mp member with
        isCharacter | ⟨-, atEnd, -⟩
      · exact starts.accounted isBefore isCharacter
      · exact absurd atEnd (Nat.ne_of_lt inLineToo)

/-- A character of the line is part of a comment if it does not stand before a
`#` at which a token of the line could start. -/
theorem isComment_iff
    (haveLine : HaveLine tokens spots number line followed)
    {column : Nat}
    {character : Char} :
    IsComment tokens spots ⟨⟨number, column⟩, character⟩ ↔
      ∃ hash ≤ column,
        getElem? line hash = some '#' ∧
          StartsAt line (lexLine number line).tokens hash := by
  constructor
  · rintro ⟨⟨⟨own, hash⟩, first⟩, member, isFirst, sameLine, notBehind, starts⟩
    obtain rfl : own = number := sameLine
    obtain rfl : first = '#' := isFirst
    have inTime : hash ≤ column := by
      simpa [Position.le_iff] using notBehind
    rcases (haveLine.spots rfl).mp member with isHash | ⟨-, -, isBreak⟩
    · have inLine : hash < line.length :=
        (List.getElem?_eq_some_iff.mp isHash).1
      exact ⟨hash, inTime, isHash, (haveLine.isTokenStart_iff inLine).mp starts⟩
    · have notBreak : '#' ≠ '\n' := by
        decide
      exact absurd isBreak notBreak
  · rintro ⟨hash, inTime, isHash, starts⟩
    have inLine : hash < line.length :=
      (List.getElem?_eq_some_iff.mp isHash).1
    exact ⟨⟨⟨number, hash⟩, '#'⟩, (haveLine.spots rfl).mpr (.inl isHash), rfl,
      rfl, Position.le_iff.mpr (.inr ⟨rfl, inTime⟩),
      (haveLine.isTokenStart_iff inLine).mpr starts⟩

/-- What no token holds is whitespace between tokens or part of a comment, and
no line feed. -/
theorem not_isCovered_iff
    (haveLine : HaveLine tokens spots number line followed)
    {column : Nat}
    {character : Char}
    (member : ⟨⟨number, column⟩, character⟩ ∈ spots) :
    ¬ IsCovered tokens ⟨number, column⟩ ↔
      character ≠ '\n' ∧
        (Text.isWhitespace character = true ∧
            IsTokenStart tokens spots ⟨number, column⟩ ∨
          IsComment tokens spots ⟨⟨number, column⟩, character⟩) := by
  rcases (haveLine.spots rfl).mp member with
    isCharacter | ⟨isFollowed, atEnd, isBreak⟩
  · have inLine : column < line.length :=
      (List.getElem?_eq_some_iff.mp isCharacter).1
    have notBreak : character ≠ '\n' := by
      rintro rfl
      exact haveLine.noBreak (List.mem_of_getElem? isCharacter)
    obtain ⟨reach, account, stops⟩ := lexLine_accountFor number line
    rw [haveLine.isCovered_iff inLine, haveLine.isTokenStart_iff inLine,
      haveLine.isComment_iff, account.uncovered_iff stops isCharacter]
    simp [notBreak]
  · obtain rfl : column = line.length := atEnd
    obtain rfl : character = '\n' := isBreak
    subst followed
    have covered : IsCovered tokens ⟨number, line.length⟩ := by
      refine ⟨lineBreak number line, (haveLine.tokens rfl).mpr (.inr rfl), ?_⟩
      exact Token.holds_span_iff.mpr
        ⟨rfl, Nat.le_refl _, Nat.lt_succ_self _⟩
    simp [covered]

end HaveLine

/-- The tokens and the characters of numbered lines have each of them. -/
theorem haveLine_lexLines
    (number : Nat)
    {line : List Char}
    {later : List (List Char)}
    (noBreak : ∀ own ∈ line :: later, '\n' ∉ own)
    {index : Nat}
    {own : List Char}
    (isOwn : (line :: later)[index]? = some own) :
    HaveLine (lexLines number line later).tokens
      (Text.lineSpots number line later) (number + index) own
      (decide (index < later.length)) where
  noBreak := noBreak own (List.mem_of_getElem? isOwn)
  tokens := mem_lexLines_iff isOwn
  spots := fun onLine => by
    rw [decide_eq_true_eq]
    exact Text.mem_lineSpots_iff noBreak isOwn onLine

/-- The last token of numbered lines is the end of the text behind the last of
them. -/
theorem getLast?_lexLines
    (number : Nat)
    (line : List Char)
    (later : List (List Char)) :
    (lexLines number line later).tokens.getLast? =
      some (textEnd (number + later.length) (later.getLastD line)) := by
  induction later generalizing number line with
  | nil =>
      simp [lexLines]
  | cons next rest inductionHypothesis =>
      have sameNumber :
          number + 1 + rest.length = number + (next :: rest).length := by
        rw [List.length_cons]
        omega
      have behind := inductionHypothesis (number + 1) next
      rw [sameNumber] at behind
      simp [lexLines, List.getLast?_cons, behind]

/-- The last token of a text stands where the text ends. -/
theorem getLast?_lex (text : String) :
    (lex text).tokens.getLast? =
      some
        { kind := .endOfText
          value := ""
          line := (Text.endOf text).line
          column := (Text.endOf text).column
          stopColumn := (Text.endOf text).column } := by
  rw [lex_eq_lexLines, getLast?_lexLines, Text.endOf_eq, Nat.zero_add]
  rfl

/-- Tokens start one after the other, and none before the last one has ended. -/
theorem lex_strictly_separated (text : String) :
    (lex text).tokens.Pairwise fun first second =>
      first.start < second.start ∧ first.stop ≤ second.start := by
  obtain ⟨tokens, last, shape, -, notEnd⟩ := tokens_lex text
  have separated : (tokens ++ [last]).Pairwise Token.IsBefore := by
    rw [← shape, lex_eq_lexLines]
    exact lexLines_separated 0 _ _
  have strictly
      {first second : Token}
      (isFirst : first ∈ tokens)
      (before : first.IsBefore second) :
      first.start < second.start ∧ first.stop ≤ second.start := by
    have member : first ∈ (lex text).tokens := by
      rw [shape]
      exact List.mem_append_left _ isFirst
    rw [lex_eq_lexLines] at member
    have filled := column_lt_of_ne_endOfText member (notEnd first isFirst)
    have takesRoom : first.start < first.stop :=
      Position.lt_iff.mpr (.inr ⟨rfl, filled⟩)
    exact ⟨Position.lt_of_lt_of_le takesRoom before, before⟩
  rw [List.pairwise_append] at separated
  rw [shape, List.pairwise_append]
  refine ⟨?_, by simp, ?_⟩
  · exact separated.1.imp_of_mem fun isFirst _ => strictly isFirst
  · intro first isFirst second isLast
    exact strictly isFirst (separated.2.2 first isFirst second isLast)

/--
Lexing is lossless.  The last token of every text is its end, where the text
ends, and no other one is.  A token holds the characters at its place, and every
other token takes room; tokens start one after the other and do not overlap; and
the line feeds of the text are the line breaks among the tokens.  What no token
holds is no line feed, and it is whitespace where a token could start, or it does
not stand before a `#` of its line at which a token could start; and all that is
held by no token.
-/
theorem lexing_lossless (text : String) :
    let tokens : List Token := (lex text).tokens
    let spots : List Text.Spot := Text.spots text
    let stop : Position := Text.endOf text
    (∃ front,
      tokens =
          front ++ [⟨.endOfText, "", stop.line, stop.column, stop.column⟩] ∧
        ∀ token ∈ front, token.kind ≠ .endOfText) ∧
      (∀ token ∈ tokens,
        token.value = Text.within text token.span ∧
          token.stopColumn = token.column + token.value.length ∧
          (token.kind ≠ .endOfText → token.column < token.stopColumn)) ∧
      (tokens.Pairwise fun first second =>
        first.start < second.start ∧ first.stop ≤ second.start) ∧
      (tokens.filter fun token => token.kind = .newline).map Token.start =
        (spots.filter fun spot => spot.character = '\n').map
          Text.Spot.position ∧
      ∀ spot ∈ spots,
        ¬ IsCovered tokens spot.position ↔
          spot.character ≠ '\n' ∧
            (Text.isWhitespace spot.character = true ∧
                IsTokenStart tokens spots spot.position ∨
              IsComment tokens spots spot) := by
  intro tokens spots stop
  have noBreak := Text.Lines.newline_not_mem_ofText text
  have sameTokens : tokens = _ := congrArg Lexing.tokens (lex_eq_lexLines text)
  have sameSpots : spots = _ := Text.spots_eq_lineSpots text
  refine ⟨?_, ?_, lex_strictly_separated text, ?_, ?_⟩
  · obtain ⟨front, last, shape, -, notEnd⟩ := tokens_lex text
    have isLast := getLast?_lex text
    rw [shape, List.getLast?_concat, Option.some.injEq] at isLast
    exact ⟨front, isLast ▸ shape, notEnd⟩
  · intro token member
    rw [sameTokens] at member
    obtain ⟨isValue, width⟩ := value_of_mem_lexLines noBreak member
    rw [← sameSpots] at isValue
    exact ⟨isValue, width, column_lt_of_ne_endOfText member⟩
  · rw [sameTokens, sameSpots]
    exact newlines_lexLines 0 noBreak
  · intro spot member
    rw [sameSpots] at member
    obtain ⟨index, own, isOwn, onLine⟩ :=
      Text.exists_line_of_mem_lineSpots noBreak member
    have haveLine := haveLine_lexLines 0 noBreak isOwn
    obtain ⟨⟨number, column⟩, character⟩ := spot
    obtain rfl : number = 0 + index := onLine
    rw [sameTokens, sameSpots]
    exact haveLine.not_isCovered_iff member

end ScriptCompletion.Script
