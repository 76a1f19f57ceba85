import ScriptCompletion.Proofs.LineLexing
import ScriptCompletion.Proofs.OutlineOrder

namespace ScriptCompletion

/-!
# What the first lines of a script settle

A parser that reads a script line by line stands between commands at the end of
every line.  So the outline of a script begins with what the first lines make of
it, and what the lines behind them add is behind them too: neither a further
command, nor a block that is closed later or never, nor a string without an end
reaches back.

Lines that a text does not have count as empty ones, since an empty line adds
nothing.
-/

namespace Text

/-- The characters of a numbered line, which is empty past the end. -/
def Lines.lineOr
    (lines : Lines)
    (number : Nat) : List Char :=
  (lines.get? number).getD []

/-- Two texts that have the same lines up to a last one. -/
def AgreeThrough
    (last : Nat)
    (first second : String) : Prop :=
  ∀ number ≤ last,
    (Lines.ofText first).lineOr number = (Lines.ofText second).lineOr number

instance
    (last : Nat)
    (first second : String) :
    Decidable (AgreeThrough last first second) :=
  inferInstanceAs (Decidable
    (∀ number ≤ last,
      (Lines.ofText first).lineOr number =
        (Lines.ofText second).lineOr number))

theorem lineAt_eq_lineOr
    (text : String)
    (number : Nat) :
    lineAt text number =
      String.ofList
        (dropCarriageReturn ((Lines.ofText text).lineOr number)) := by
  unfold lineAt Lines.lineOr
  cases found : (Lines.ofText text).get? number with
  | none =>
      simp [dropCarriageReturn]
  | some line =>
      rfl

end Text

namespace Script.Parser

/-- Read a numbered line with the line feed behind it. -/
def readLine
    (parser : Parser)
    (number : Nat)
    (line : List Char) : Parser :=
  ((lexLine number line).tokens.foldl step parser).step (lineBreak number line)

/-- Read as many lines as are counted, from a numbered one on. -/
def readLines
    (lineOf : Nat → List Char)
    (number : Nat)
    (count : Nat)
    (parser : Parser) : Parser :=
  match count with
  | 0 =>
      parser
  | count + 1 =>
      readLines lineOf (number + 1) count
        (parser.readLine number (lineOf number))

/-- Only the lines that are read matter. -/
theorem readLines_congr
    {firstOf secondOf : Nat → List Char}
    {number count : Nat}
    (same :
      ∀ own,
        own < number + count →
        firstOf own = secondOf own)
    (parser : Parser) :
    readLines firstOf number count parser =
      readLines secondOf number count parser := by
  induction count generalizing number parser with
  | zero =>
      rfl
  | succ count inductionHypothesis =>
      have sameLine : firstOf number = secondOf number :=
        same number (by omega)
      have sameLater :
          ∀ own,
            own < number + 1 + count →
            firstOf own = secondOf own :=
        fun own inside => same own (by omega)
      simp only [readLines]
      rw [sameLine, inductionHypothesis sameLater]

/-- Between commands a line break changes nothing. -/
theorem step_newline_of_idle
    {parser : Parser}
    (idle : parser.mode = .idle)
    {token : Token}
    (isBreak : token.kind = .newline) :
    parser.step token = parser := by
  cases parser
  subst idle
  simp [step, readIdle, isBreak]

/-- An empty line adds nothing. -/
theorem readLine_nil
    {parser : Parser}
    (idle : parser.mode = .idle)
    (number : Nat) :
    parser.readLine number [] = parser :=
  step_newline_of_idle idle rfl

theorem readLines_of_empty
    {parser : Parser}
    (idle : parser.mode = .idle)
    {lineOf : Nat → List Char}
    {number : Nat}
    (empty :
      ∀ own,
        number ≤ own →
        lineOf own = [])
    (count : Nat) :
    readLines lineOf number count parser = parser := by
  induction count generalizing number with
  | zero =>
      rfl
  | succ count inductionHypothesis =>
      rw [readLines, empty number (Nat.le_refl number), readLine_nil idle]
      exact inductionHypothesis fun own later => empty own (by omega)

theorem mode_readIdle_ne_ended
    (parser : Parser)
    {token : Token}
    (notEnd : token.kind ≠ .endOfText) :
    (parser.readIdle token).mode ≠ .ended := by
  cases kind : token.kind with
  | endOfText =>
      exact (notEnd kind).elim
  | closing =>
      cases opened : parser.blocks <;>
        simp [readIdle, kind, opened]
  | _ =>
      simp [readIdle, kind]

theorem mode_readHeader_ne_ended
    (parser : Parser)
    (header : Header)
    {token : Token}
    (notEnd : token.kind ≠ .endOfText) :
    (parser.readHeader header token).mode ≠ .ended := by
  have finished :=
    mode_readIdle_ne_ended (parser.push (header.toCommand none)) notEnd
  cases kind : token.kind with
  | newline | closing | endOfText =>
      simpa only [readHeader, kind] using finished
  | _ =>
      simp [readHeader, kind]

/-- Only the end of the text ends the parser. -/
theorem mode_step_ne_ended
    {parser : Parser}
    (going : parser.mode ≠ .ended)
    {token : Token}
    (notEnd : token.kind ≠ .endOfText) :
    (parser.step token).mode ≠ .ended := by
  cases mode : parser.mode with
  | idle =>
      simpa only [step, mode] using mode_readIdle_ne_ended parser notEnd
  | header header =>
      simpa only [step, mode] using
        mode_readHeader_ne_ended parser header notEnd
  | opened header opening =>
      by_cases ends : token.kind.endsLine = true
      · simpa only [step, mode, readOpened, ends, ↓reduceIte] using
          mode_readIdle_ne_ended (parser.enterBlock header opening) notEnd
      · simp only [step, mode, readOpened, ends]
        exact mode_readHeader_ne_ended
          (parser.report .openingInsideLine opening) header notEnd
  | skipping =>
      by_cases ends : token.kind.endsLine = true
      · simpa only [step, mode, ends, ↓reduceIte] using
          mode_readIdle_ne_ended parser notEnd
      · simp [step, mode, ends]
  | ended =>
      exact (going mode).elim

theorem mode_foldl_ne_ended
    {parser : Parser}
    (going : parser.mode ≠ .ended)
    {tokens : List Token}
    (notEnd : ∀ token ∈ tokens, token.kind ≠ .endOfText) :
    (tokens.foldl step parser).mode ≠ .ended := by
  induction tokens generalizing parser with
  | nil =>
      exact going
  | cons token rest inductionHypothesis =>
      rw [List.forall_mem_cons] at notEnd
      exact inductionHypothesis (mode_step_ne_ended going notEnd.1) notEnd.2

/-- Behind a line break the parser stands between commands. -/
theorem mode_step_newline
    {parser : Parser}
    (going : parser.mode ≠ .ended)
    {token : Token}
    (isBreak : token.kind = .newline) :
    (parser.step token).mode = .idle := by
  cases mode : parser.mode with
  | ended =>
      exact (going mode).elim
  | _ =>
      simp [step, mode, readIdle, readHeader, readOpened, isBreak,
        TokenKind.endsLine]

/-- The end of the text does what a line break does, and ends the parser. -/
theorem step_endOfText
    {parser : Parser}
    (going : parser.mode ≠ .ended)
    {lineEnd lastEnd : Token}
    (isBreak : lineEnd.kind = .newline)
    (isEnd : lastEnd.kind = .endOfText) :
    parser.step lastEnd = { parser.step lineEnd with mode := .ended } := by
  cases mode : parser.mode with
  | ended =>
      exact (going mode).elim
  | _ =>
      simp [step, mode, readIdle, readHeader, readOpened, isBreak, isEnd,
        TokenKind.endsLine]

theorem mode_readLine
    {parser : Parser}
    (idle : parser.mode = .idle)
    (number : Nat)
    (line : List Char) :
    (parser.readLine number line).mode = .idle := by
  have going : parser.mode ≠ .ended := by
    simp [idle]
  exact mode_step_newline
    (mode_foldl_ne_ended going (areOnLine_lexLine number line).ne_endOfText) rfl

/-- Nothing but the ends of open blocks comes behind the last line. -/
theorem outline_finish_textEnd
    {parser : Parser}
    (idle : parser.mode = .idle)
    (number : Nat)
    (line : List Char)
    (stop : Position) :
    ∃ late,
      Script.outline
          ((((lexLine number line).tokens ++ [textEnd number line]).foldl step
            parser).finish stop).commands.reverse =
        (parser.readLine number line).outline ++ late ∧
      ∀ event ∈ late, event.line? = none := by
  have going : ((lexLine number line).tokens.foldl step parser).mode ≠ .ended :=
    mode_foldl_ne_ended (by simp [idle])
      (areOnLine_lexLine number line).ne_endOfText
  have isBreak : (lineBreak number line).kind = .newline := rfl
  have isEnd : (textEnd number line).kind = .endOfText := rfl
  have ended :
      ((lexLine number line).tokens ++ [textEnd number line]).foldl step
          parser =
        { parser.readLine number line with mode := .ended } := by
    rw [List.foldl_append, List.foldl_cons, List.foldl_nil,
      step_endOfText going isBreak isEnd]
    rfl
  refine ⟨unclosed stop (parser.readLine number line).blocks, ?_, ?_⟩
  · rw [ended, outline_finish]
    simp [settleEvents, settle, outline]
  · intro event member
    exact line?_of_mem_unclosed member

/-- The outline of lines begins with what those up to a last one make of it. -/
theorem outline_lexLines
    {lineOf : Nat → List Char}
    {number count last : Nat}
    {line : List Char}
    {later : List (List Char)}
    (holds : ∀ index, lineOf (number + index) = (line :: later)[index]?.getD [])
    (counted : number + count = last + 1)
    {parser : Parser}
    (idle : parser.mode = .idle)
    (stop : Position) :
    ∃ late,
      Script.outline
          (((lexLines number line later).tokens.foldl step parser).finish
            stop).commands.reverse =
        (readLines lineOf number count parser).outline ++ late ∧
      ∀ event ∈ late, event.IsBehind last := by
  induction later generalizing number count line parser with
  | nil =>
      cases count with
      | zero =>
          refine outline_of_behind ?_ ?_ stop
          · simp [idle, ParserMode.pending?]
          · intro token member
            have := le_line_of_mem_lexLines member
            omega
      | succ count =>
          obtain ⟨late, sameOutline, without⟩ :=
            outline_finish_textEnd idle number line stop
          have isLine : lineOf number = line := by
            simpa using holds 0
          have empty :
              ∀ own,
                number + 1 ≤ own →
                lineOf own = [] := by
            intro own behind
            have := holds (own - number)
            rw [Nat.add_sub_cancel' (by omega)] at this
            rw [this, List.getElem?_eq_none (by simp; omega)]
            rfl
          refine ⟨late, ?_, ?_⟩
          · simp only [lexLines, readLines]
            rw [sameOutline, isLine,
              readLines_of_empty (mode_readLine idle number line) empty count]
          · intro event member own isOwn
            rw [without event member] at isOwn
            cases isOwn
  | cons next rest inductionHypothesis =>
      cases count with
      | zero =>
          refine outline_of_behind ?_ ?_ stop
          · simp [idle, ParserMode.pending?]
          · intro token member
            have := le_line_of_mem_lexLines member
            omega
      | succ count =>
          have isLine : lineOf number = line := by
            simpa using holds 0
          have holdsLater :
              ∀ index,
                lineOf (number + 1 + index) =
                  (next :: rest)[index]?.getD [] := by
            intro index
            have := holds (index + 1)
            rw [List.getElem?_cons_succ] at this
            rw [← this]
            congr 1
            omega
          have read :
              (lexLines number line (next :: rest)).tokens.foldl step parser =
                (lexLines (number + 1) next rest).tokens.foldl step
                  (parser.readLine number line) := by
            simp [lexLines, readLine]
          rw [read, readLines, isLine]
          exact inductionHypothesis holdsLater (by omega)
            (mode_readLine idle number line)

end Script.Parser

namespace Script

/-- What the lines of a text up to a last one are read as. -/
def readThrough
    (text : String)
    (last : Nat) : Parser :=
  Parser.readLines (Text.Lines.ofText text).lineOr 0 (last + 1) .initial

/-- Texts with the same lines up to a last one are read alike up to it. -/
theorem readThrough_congr
    {last : Nat}
    {first second : String}
    (agree : Text.AgreeThrough last first second) :
    readThrough first last = readThrough second last := by
  apply Parser.readLines_congr
  intro own inside
  exact agree own (by omega)

/-- The outline of a script begins with what the lines up to a last one make of
it, and whatever follows is behind that line. -/
theorem outline_parse
    {text : String}
    (fits : text.utf8ByteSize ≤ maxBytes)
    (last : Nat) :
    ∃ late,
      outline (parse text).commands = (readThrough text last).outline ++ late ∧
      ∀ event ∈ late, event.IsBehind last := by
  have notTooLarge : ¬ maxBytes < text.utf8ByteSize :=
    Nat.not_lt.mpr fits
  have holds :
      ∀ index,
        (Text.Lines.ofText text).lineOr (0 + index) =
          ((Text.Lines.ofText text).first ::
            (Text.Lines.ofText text).later)[index]?.getD [] := by
    intro index
    rw [Nat.zero_add]
    rfl
  have counted : 0 + (last + 1) = last + 1 := Nat.zero_add _
  have idle : Parser.initial.mode = .idle := rfl
  simp only [parse, notTooLarge, ↓reduceIte, parseTokens, lex_eq_lexLines]
  exact Parser.outline_lexLines holds counted idle _

/-- A text from which commands are read is not too large. -/
theorem size_of_commands
    {text : String}
    (notEmpty : (parse text).commands.isEmpty = false) :
    text.utf8ByteSize ≤ maxBytes := by
  apply Nat.not_lt.mp
  intro tooLarge
  simp [parse, tooLarge] at notEmpty

/-- Texts with the same lines up to a last one have outlines with the same
beginning, if commands are read from both or from neither. -/
theorem outlines_of_agreeThrough
    {last : Nat}
    {first second : String}
    (agree : Text.AgreeThrough last first second)
    (sameEmpty :
      (parse first).commands.isEmpty = (parse second).commands.isEmpty) :
    ∃ early firstLate secondLate,
      outline (parse first).commands = early ++ firstLate ∧
        outline (parse second).commands = early ++ secondLate ∧
        (∀ event ∈ firstLate, event.IsBehind last) ∧
        ∀ event ∈ secondLate, event.IsBehind last := by
  cases empty : (parse first).commands.isEmpty with
  | true =>
      have firstNil := List.isEmpty_iff.mp empty
      have secondNil := List.isEmpty_iff.mp (sameEmpty.symm.trans empty)
      exact ⟨[], [], [], by simp [firstNil], by simp [secondNil], by simp,
        by simp⟩
  | false =>
      obtain ⟨firstLate, firstShape, firstBehind⟩ :=
        outline_parse (size_of_commands empty) last
      obtain ⟨secondLate, secondShape, secondBehind⟩ :=
        outline_parse (size_of_commands (sameEmpty.symm.trans empty)) last
      rw [← readThrough_congr agree] at secondShape
      exact ⟨(readThrough first last).outline, firstLate, secondLate,
        firstShape, secondShape, firstBehind, secondBehind⟩

/-- A script is read from top to bottom. -/
theorem parse_sorted (text : String) :
    (outline (parse text).commands).Pairwise Event.Precedes := by
  unfold parse
  split
  · simp
  · rw [lex_eq_lexLines]
    exact Parser.parseTokens_sorted (lexLines_sorted 0 _ _)

end Script

end ScriptCompletion
