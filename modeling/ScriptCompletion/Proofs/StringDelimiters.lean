import Mathlib.Data.List.Induction
import Mathlib.Data.List.Nodup
import ScriptCompletion.Proofs.LosslessLexing

namespace ScriptCompletion.Script

/-!
# Strings and their delimiters

The lexer reads a string from left to right and takes every character behind a backslash
with it, so it knows which quote ends the string.  An argument no longer knows this: it
takes a last character that is the same as the first one for the closing delimiter.  The
two agree on every string that was closed, and on every unterminated one but those whose
last character is a quote behind a backslash, which is part of the string.
-/

theorem isQuote_iff
    {character : Char} :
    isQuote character = true ↔ character = '"' ∨ character = '\'' := by
  simp [isQuote]

/-!
## Without its delimiters
-/

theorem unquote_closed
    {quote : Char}
    (delimits : isQuote quote = true)
    (body : List Char) :
    unquote (quote :: (body ++ [quote])) = body := by
  rcases isQuote_iff.mp delimits with rfl | rfl
  · simp [unquote]
  · simp [unquote]

theorem unquote_open
    {quote : Char}
    (delimits : isQuote quote = true)
    {inner : List Char}
    (lastOther : inner.getLast? ≠ some quote) :
    unquote (quote :: inner) = inner := by
  rcases isQuote_iff.mp delimits with rfl | rfl
  · simp [unquote, lastOther]
  · simp [unquote, lastOther]

/-!
## From left to right
-/

/-- Where the reader of a string stands behind its first quote and the given
characters. -/
def quotingBehind
    (quote : Char)
    (inner : List Char) : Quoting :=
  inner.foldl Quoting.advance (.inside quote)

theorem quotingBehind_concat
    (quote : Char)
    (inner : List Char)
    (character : Char) :
    quotingBehind quote (inner ++ [character]) =
      (quotingBehind quote inner).advance character := by
  simp [quotingBehind]

/-- The reader of a string keeps to its quote until it has left the string. -/
theorem quotingBehind_cases
    (quote : Char)
    (inner : List Char) :
    quotingBehind quote inner = .outside ∨
      quotingBehind quote inner = .inside quote ∨
      quotingBehind quote inner = .escaped quote := by
  induction inner using List.reverseRecOn with
  | nil =>
      exact .inr (.inl rfl)
  | append_singleton inner character inductionHypothesis =>
      rw [quotingBehind_concat]
      rcases inductionHypothesis with isOutside | isInside | isEscaped
      · rw [isOutside]
        exact .inl rfl
      · rw [isInside]
        simp only [Quoting.advance]
        split
        · exact .inr (.inr rfl)
        · split
          · exact .inl rfl
          · exact .inr (.inl rfl)
      · rw [isEscaped]
        exact .inr (.inl rfl)

/-- The character that a string ends with is its quote. -/
theorem eq_quote_of_quotingBehind
    {quote character : Char}
    {inner : List Char}
    (notYet : quotingBehind quote inner ≠ .outside)
    (ended : (quotingBehind quote inner).advance character = .outside) :
    character = quote := by
  rcases quotingBehind_cases quote inner with isOutside | isInside | isEscaped
  · exact absurd isOutside notYet
  · rw [isInside] at ended
    simp only [Quoting.advance] at ended
    split at ended
    · cases ended
    · split at ended
      · assumption
      · cases ended
  · rw [isEscaped] at ended
    cases ended

/-- The reader has a character to take with it if the last one was a backslash. -/
theorem eq_concat_of_escaped
    {quote : Char}
    {inner : List Char}
    (escaped : quotingBehind quote inner = .escaped quote) :
    ∃ front, inner = front ++ ['\\'] := by
  rcases List.eq_nil_or_concat inner with rfl | ⟨front, last, rfl⟩
  · cases escaped
  · rw [List.concat_eq_append, quotingBehind_concat] at escaped
    rw [List.concat_eq_append]
    rcases quotingBehind_cases quote front with isOutside | isInside | isEscaped
    · rw [isOutside] at escaped
      cases escaped
    · rw [isInside] at escaped
      simp only [Quoting.advance] at escaped
      split at escaped
      · rename_i isBackslash
        exact ⟨front, by rw [isBackslash]⟩
      · split at escaped
        · cases escaped
        · cases escaped
    · rw [isEscaped] at escaped
      cases escaped

/-- A quote that does not end its string stands behind a backslash. -/
theorem escaped_of_quotingBehind
    {quote : Char}
    (delimits : isQuote quote = true)
    {inner : List Char}
    (goesOn : quotingBehind quote (inner ++ [quote]) ≠ .outside) :
    ∃ front, inner = front ++ ['\\'] := by
  rw [quotingBehind_concat] at goesOn
  rcases quotingBehind_cases quote inner with isOutside | isInside | isEscaped
  · rw [isOutside] at goesOn
    exact absurd rfl goesOn
  · have notBackslash : quote ≠ '\\' := by
      rintro rfl
      cases delimits
    rw [isInside] at goesOn
    simp [Quoting.advance, notBackslash] at goesOn
  · exact eq_concat_of_escaped isEscaped

/-!
## Strings among the tokens
-/

/-- A string that was closed: its first character is the quote that ends it. -/
structure Token.IsClosedString
    (token : Token)
    (quote : Char)
    (body : List Char) : Prop where
  delimits : isQuote quote = true
  value : token.value = String.ofList (quote :: (body ++ [quote]))
  ended : quotingBehind quote (body ++ [quote]) = .outside

/-- A string of which the line had no end. -/
structure Token.IsOpenString
    (token : Token)
    (quote : Char)
    (inner : List Char) : Prop where
  delimits : isQuote quote = true
  value : token.value = String.ofList (quote :: inner)
  goesOn : quotingBehind quote inner ≠ .outside

/-- A string was closed or not. -/
theorem Token.IsClosedString.not_isOpenString
    {token : Token}
    {quote other : Char}
    {body inner : List Char}
    (isClosed : token.IsClosedString quote body) :
    ¬ token.IsOpenString other inner := by
  intro isOpen
  have sameValue := isClosed.value.symm.trans isOpen.value
  obtain ⟨rfl, rfl⟩ := List.cons.inj (String.ofList_injective sameValue)
  exact isOpen.goesOn isClosed.ended

/-- Tokens and problems that tell of every string whether it was closed: the strings
that were not are those at which it is reported. -/
structure StringsKnown
    (tokens : List Token)
    (problems : List Problem) : Prop where
  closed_or_reported :
    ∀ token ∈ tokens,
      token.kind = .string →
      (∃ quote body, token.IsClosedString quote body) ∨
        ∃ quote inner,
          token.IsOpenString quote inner ∧
            ⟨.unterminatedString quote, token.start⟩ ∈ problems
  reported :
    ∀ quote position,
      ⟨.unterminatedString quote, position⟩ ∈ problems →
      ∃ token ∈ tokens,
        token.start = position ∧ ∃ inner, token.IsOpenString quote inner

namespace StringsKnown

variable {tokens : List Token} {problems : List Problem}

/-- A token that is no string, or one that was closed, needs no report. -/
theorem record
    (known : StringsKnown tokens problems)
    {token : Token}
    (isClosed :
      token.kind = .string →
      ∃ quote body, token.IsClosedString quote body) :
    StringsKnown (token :: tokens) problems where
  closed_or_reported := by
    rw [List.forall_mem_cons]
    exact ⟨fun isString => .inl (isClosed isString), known.closed_or_reported⟩
  reported := by
    intro quote position member
    obtain ⟨other, isRecorded, isOpen⟩ := known.reported quote position member
    exact ⟨other, List.mem_cons_of_mem token isRecorded, isOpen⟩

/-- A string without end is reported where it starts. -/
theorem record_open
    (known : StringsKnown tokens problems)
    {token : Token}
    {quote : Char}
    {inner : List Char}
    (isOpen : token.IsOpenString quote inner) :
    StringsKnown (token :: tokens)
      (⟨.unterminatedString quote, token.start⟩ :: problems) where
  closed_or_reported := by
    rw [List.forall_mem_cons]
    refine ⟨fun _ => .inr ⟨quote, inner, isOpen, List.mem_cons_self⟩, ?_⟩
    intro other member isString
    rcases known.closed_or_reported other member isString with
      isClosed | ⟨own, text, isOpenToo, isReported⟩
    · exact .inl isClosed
    · exact .inr ⟨own, text, isOpenToo, List.mem_cons_of_mem _ isReported⟩
  reported := by
    intro own position member
    rcases List.mem_cons.mp member with isNew | isOld
    · cases isNew
      exact ⟨token, List.mem_cons_self, rfl, inner, isOpen⟩
    · obtain ⟨other, isRecorded, isOpenToo⟩ := known.reported own position isOld
      exact ⟨other, List.mem_cons_of_mem token isRecorded, isOpenToo⟩

/-- Other problems tell nothing of strings. -/
theorem report
    (known : StringsKnown tokens problems)
    {problem : Problem}
    (isOther : ∀ quote, problem.cause ≠ .unterminatedString quote) :
    StringsKnown tokens (problem :: problems) where
  closed_or_reported := by
    intro token member isString
    rcases known.closed_or_reported token member isString with
      isClosed | ⟨quote, inner, isOpen, isReported⟩
    · exact .inl isClosed
    · exact .inr ⟨quote, inner, isOpen, List.mem_cons_of_mem _ isReported⟩
  reported := by
    intro quote position member
    rcases List.mem_cons.mp member with isNew | isOld
    · exact absurd (congrArg Problem.cause isNew).symm (isOther quote)
    · exact known.reported quote position isOld

end StringsKnown

namespace Lexeme

theorem string_of_kind
    {lexeme : Lexeme}
    (isString : lexeme.kind = .string) :
    ∃ quote quoting, lexeme = .string quote quoting := by
  cases lexeme with
  | string quote quoting =>
      exact ⟨quote, quoting, rfl⟩
  | _ =>
      cases isString

/-- Nothing but a string is reported as an unterminated one. -/
theorem kind_of_interruption
    {lexeme : Lexeme}
    {quote : Char}
    (reported : lexeme.interruption = some (.unterminatedString quote)) :
    lexeme.kind = .string := by
  cases lexeme with
  | string own quoting =>
      rfl
  | helper nesting =>
      simp only [interruption] at reported
      split at reported <;> cases reported
  | _ =>
      cases reported

/-- Only a string goes on as a string. -/
theorem string_of_receive
    {lexeme : Lexeme}
    {character quote : Char}
    {next : Quoting}
    (goesOn : lexeme.receive character = .extended (.string quote next)) :
    ∃ quoting,
      lexeme = .string quote quoting ∧
        quoting.advance character = next ∧
        next ≠ .outside := by
  cases lexeme with
  | string own quoting =>
      simp only [receive] at goesOn
      split at goesOn
      · cases goesOn
      · rename_i notOutside
        cases goesOn
        exact ⟨quoting, rfl, rfl, notOutside⟩
  | _ =>
      simp only [receive] at goesOn
      split at goesOn <;> cases goesOn

/-- A string is complete when its reader has left it. -/
theorem advance_of_receive
    {quote character : Char}
    {quoting : Quoting}
    (completed : (string quote quoting).receive character = .completed) :
    quoting.advance character = .outside := by
  simp only [receive] at completed
  split at completed
  · assumption
  · cases completed

end Lexeme

namespace Lexer

/-- What the lexer knows of the strings of its text, and of the one that it reads. -/
structure KnowsStrings (lexer : Lexer) : Prop where
  known : StringsKnown lexer.tokens lexer.problems
  reading :
    ∀ {quote quoting start text},
      lexer.mode = .reading (.string quote quoting) start text →
      ∃ inner,
        text.reverse = quote :: inner ∧
          isQuote quote = true ∧
          quotingBehind quote inner = quoting ∧
          quoting ≠ .outside

namespace KnowsStrings

variable {lexer : Lexer}

/-- A string that ends too early is reported, and nothing else is reported as one. -/
theorem interrupt
    (knows : lexer.KnowsStrings) :
    lexer.interrupt.KnowsStrings := by
  have isIdle := (interrupt_place lexer).2.2
  refine ⟨?_, by simp [isIdle]⟩
  cases mode : lexer.mode with
  | idle | comment =>
      simpa [Lexer.interrupt, mode] using knows.known
  | reading lexeme start text =>
      by_cases isString : lexeme.kind = .string
      · obtain ⟨quote, quoting, rfl⟩ := Lexeme.string_of_kind isString
        obtain ⟨inner, isText, delimits, behind, notOutside⟩ :=
          knows.reading mode
        simp only [Lexer.interrupt, mode, Lexeme.interruption, report, emit]
        apply knows.known.record_open
        exact ⟨delimits, congrArg String.ofList isText, behind ▸ notOutside⟩
      · have recorded :
            StringsKnown
              (lexer.emit lexeme.kind text.reverse start lexer.column).tokens
              lexer.problems :=
          knows.known.record fun isToken => absurd isToken isString
        cases cause : lexeme.interruption with
        | none =>
            simp only [Lexer.interrupt, mode, report, cause]
            exact recorded
        | some own =>
            have isOther (quote : Char) : own ≠ .unterminatedString quote := by
              rintro rfl
              exact isString (Lexeme.kind_of_interruption cause)
            simp only [Lexer.interrupt, mode, report, cause]
            exact recorded.report isOther

/-- A character between lexemes ends no string, and a quote begins one. -/
theorem start
    (knows : lexer.KnowsStrings)
    (isIdle : lexer.mode = .idle)
    (character : Char) :
    (lexer.start character).KnowsStrings := by
  have bracket
      {kind : TokenKind}
      (notString : kind ≠ .string) :
      StringsKnown
        (lexer.emit kind [character] lexer.column (lexer.column + 1)).tokens
        lexer.problems :=
    knows.known.record fun isString => absurd isString notString
  unfold Lexer.start
  split
  · exact ⟨knows.known, by simp [isIdle]⟩
  · split
    · exact ⟨knows.known, by simp⟩
    · split
      · exact ⟨bracket (by simp), by simp [emit, isIdle]⟩
      · split
        · exact ⟨bracket (by simp), by simp [emit, isIdle]⟩
        · refine ⟨knows.known, ?_⟩
          intro quote quoting start text isReading
          simp only [LexerMode.reading.injEq] at isReading
          obtain ⟨started, -, rfl⟩ := isReading
          unfold Lexeme.startedBy at started
          split at started
          · rename_i delimits
            cases started
            exact ⟨[], rfl, delimits, rfl, by simp⟩
          · repeat' split at started
            all_goals cases started

/-- A character of a line ends a string, goes on with it or begins one. -/
theorem advance
    (knows : lexer.KnowsStrings)
    (character : Char) :
    (lexer.advance character).KnowsStrings := by
  unfold Lexer.advance
  cases mode : lexer.mode with
  | idle =>
      exact knows.start mode character
  | comment =>
      exact ⟨knows.known, by simp⟩
  | reading lexeme start text =>
      cases received : lexeme.receive character with
      | extended next =>
          simp only [received]
          refine ⟨knows.known, ?_⟩
          intro quote quoting otherStart otherText isReading
          cases isReading
          obtain ⟨before, rfl, advanced, notOutside⟩ :=
            Lexeme.string_of_receive received
          obtain ⟨inner, isText, delimits, behind, -⟩ := knows.reading mode
          refine ⟨inner ++ [character], ?_, delimits, ?_, notOutside⟩
          · rw [List.reverse_cons, isText, List.cons_append]
          · rw [quotingBehind_concat, behind, advanced]
      | completed =>
          simp only [received]
          refine ⟨knows.known.record fun isString => ?_, by simp⟩
          obtain ⟨quote, quoting, rfl⟩ := Lexeme.string_of_kind isString
          obtain ⟨inner, isText, delimits, rfl, notYet⟩ := knows.reading mode
          have ended := Lexeme.advance_of_receive received
          obtain rfl := eq_quote_of_quotingBehind notYet ended
          refine ⟨character, inner, delimits, ?_, ?_⟩
          · rw [List.reverse_cons, isText, List.cons_append]
          · rw [quotingBehind_concat, ended]
      | refused =>
          simp only [received]
          exact knows.interrupt.start (interrupt_place lexer).2.2 character

theorem step
    (knows : lexer.KnowsStrings)
    (character : Char) :
    (lexer.step character).KnowsStrings := by
  unfold Lexer.step
  split
  · have isIdle := (interrupt_place lexer).2.2
    refine ⟨?_, by simp [breakLine, emit, isIdle]⟩
    exact knows.interrupt.known.record fun isString => by cases isString
  · exact knows.advance character

theorem foldl_step
    (knows : lexer.KnowsStrings)
    (characters : List Char) :
    (characters.foldl Lexer.step lexer).KnowsStrings := by
  induction characters generalizing lexer with
  | nil =>
      exact knows
  | cons character rest inductionHypothesis =>
      exact inductionHypothesis (knows.step character)

end KnowsStrings

end Lexer

/-- The tokens and problems of a text tell of every string whether it was closed. -/
theorem stringsKnown_lex (text : String) :
    StringsKnown (lex text).tokens (lex text).problems := by
  have start : Lexer.initial.KnowsStrings :=
    ⟨⟨by simp [Lexer.initial], by simp [Lexer.initial]⟩,
      by simp [Lexer.initial]⟩
  have read := (start.foldl_step text.toList).interrupt
  have ended :
      StringsKnown (text.toList.foldl Lexer.step .initial).finish.tokens
        (text.toList.foldl Lexer.step .initial).finish.problems :=
    read.known.record fun isString => by cases isString
  constructor
  · simpa [lex] using ended.closed_or_reported
  · simpa [lex] using ended.reported

/-- Of two tokens of a text one starts before the other. -/
theorem eq_of_start_eq
    {text : String}
    {first second : Token}
    (isFirst : first ∈ (lex text).tokens)
    (isSecond : second ∈ (lex text).tokens)
    (sameStart : first.start = second.start) :
    first = second := by
  have different : ((lex text).tokens.map Token.start).Nodup := by
    rw [List.Nodup, List.pairwise_map]
    refine (lex_strictly_separated text).imp ?_
    rintro first second ⟨before, -⟩ same
    rw [same, Position.lt_iff] at before
    omega
  exact List.inj_on_of_nodup_map different isFirst isSecond sameStart

/-- A string that was closed is not reported, and any other one is. -/
theorem closed_or_open
    {text : String}
    {token : Token}
    (member : token ∈ (lex text).tokens)
    (isString : token.kind = .string) :
    (∃ quote body,
        token.IsClosedString quote body ∧
          ∀ other,
            ⟨.unterminatedString other, token.start⟩ ∉ (lex text).problems) ∨
      ∃ quote inner,
        token.IsOpenString quote inner ∧
          ⟨.unterminatedString quote, token.start⟩ ∈ (lex text).problems := by
  have known := stringsKnown_lex text
  rcases known.closed_or_reported token member isString with
    ⟨quote, body, isClosed⟩ | isOpen
  · refine .inl ⟨quote, body, isClosed, ?_⟩
    intro other reported
    obtain ⟨own, isOwn, sameStart, inner, isOpen⟩ :=
      known.reported other token.start reported
    obtain rfl := eq_of_start_eq isOwn member sameStart
    exact isClosed.not_isOpenString isOpen
  · exact .inr isOpen

/-!
## Strings as arguments
-/

/-- Whether the last character of a written string, behind the first one, is a quote
behind a backslash. -/
def EndsInEscapedQuote
    (quote : Char)
    (raw : String) : Prop :=
  ['\\', quote] <:+ raw.toList.tail

instance (quote : Char) (raw : String) :
    Decidable (EndsInEscapedQuote quote raw) :=
  inferInstanceAs (Decidable (_ <:+ _))

namespace Argument

/-- Of a string with both delimiters both are taken away. -/
theorem raw_of_closed
    {token : Token}
    (isString : token.kind = .string)
    {quote : Char}
    (delimits : isQuote quote = true)
    {body : List Char}
    (isValue : token.value = String.ofList (quote :: (body ++ [quote]))) :
    (ofToken token).raw =
      String.singleton quote ++ (ofToken token).value ++
        String.singleton quote := by
  have value : (ofToken token).value = String.ofList body := by
    simp [Argument.value, ofToken, isString, TokenKind.argumentKind, isValue,
      unquote_closed delimits]
  apply String.toList_injective
  rw [value]
  simp [ofToken, isValue]

/-- Of a string that does not end with its delimiter only the first one is taken
away. -/
theorem raw_of_open
    {token : Token}
    (isString : token.kind = .string)
    {quote : Char}
    (delimits : isQuote quote = true)
    {inner : List Char}
    (isValue : token.value = String.ofList (quote :: inner))
    (lastOther : inner.getLast? ≠ some quote) :
    (ofToken token).raw =
      String.singleton quote ++ (ofToken token).value := by
  have value : (ofToken token).value = String.ofList inner := by
    simp [Argument.value, ofToken, isString, TokenKind.argumentKind, isValue,
      unquote_open delimits lastOther]
  apply String.toList_injective
  rw [value]
  simp [ofToken, isValue]

/--
String arguments lose their delimiters.  Take any string among the tokens of any text; it
begins with a quote.  If it was closed, that is, not reported as unterminated where it
starts, then its value is what stands between its two delimiters.  If it was not, then
its value is all that stands behind the first one, unless its last character is the same
quote behind a backslash: this one is then taken for a delimiter and lost.
-/
theorem strings_lose_delimiters
    (text : String)
    (token : Token)
    (member : token ∈ (lex text).tokens)
    (isString : token.kind = .string) :
    let argument : Argument := ofToken token
    ∃ quote,
      isQuote quote = true ∧
        argument.raw.toList.head? = some quote ∧
        (⟨.unterminatedString quote, token.start⟩ ∉ (lex text).problems →
          argument.raw =
            String.singleton quote ++ argument.value ++
              String.singleton quote) ∧
        (⟨.unterminatedString quote, token.start⟩ ∈ (lex text).problems →
          argument.raw =
            if EndsInEscapedQuote quote argument.raw then
              String.singleton quote ++ argument.value ++
                String.singleton quote
            else
              String.singleton quote ++ argument.value) := by
  intro argument
  have isRaw : argument.raw = token.value := rfl
  rcases closed_or_open member isString with
    ⟨quote, body, isClosed, notReported⟩ | ⟨quote, inner, isOpen, reported⟩
  · refine ⟨quote, isClosed.delimits, ?_, fun _ => ?_, ?_⟩
    · simp [isRaw, isClosed.value]
    · exact raw_of_closed isString isClosed.delimits isClosed.value
    · intro reported
      exact absurd reported (notReported quote)
  · refine ⟨quote, isOpen.delimits, ?_, fun notReported => ?_, fun _ => ?_⟩
    · simp [isRaw, isOpen.value]
    · exact absurd reported notReported
    · have sameTail : argument.raw.toList.tail = inner := by
        simp [isRaw, isOpen.value]
      split
      · rename_i ending
        rw [EndsInEscapedQuote, sameTail] at ending
        obtain ⟨front, rfl⟩ := ending
        have shape : front ++ ['\\', quote] = (front ++ ['\\']) ++ [quote] := by
          simp
        exact raw_of_closed isString isOpen.delimits (shape ▸ isOpen.value)
      · rename_i otherwise
        apply raw_of_open isString isOpen.delimits isOpen.value
        intro endsInQuote
        -- A quote at the end would have closed the string, had it not been escaped.
        obtain ⟨earlier, rfl⟩ := List.getLast?_eq_some_iff.mp endsInQuote
        obtain ⟨front, rfl⟩ :=
          escaped_of_quotingBehind isOpen.delimits isOpen.goesOn
        apply otherwise
        rw [EndsInEscapedQuote, sameTail]
        exact ⟨front, by simp⟩

/-- A string that is closed behind an escaped quote, and one that is not closed. -/
theorem strings_lose_delimiters_on_one_line :
    let text := "set $x \"a\\\"\" 'b"
    let closed : Token := ⟨.string, "\"a\\\"\"", 0, 7, 12⟩
    let unterminated : Token := ⟨.string, "'b", 0, 13, 15⟩
    closed ∈ (lex text).tokens ∧
      unterminated ∈ (lex text).tokens ∧
      ⟨.unterminatedString '"', closed.start⟩ ∉ (lex text).problems ∧
      ⟨.unterminatedString '\'', unterminated.start⟩ ∈ (lex text).problems ∧
      (ofToken closed).raw =
        String.singleton '"' ++ (ofToken closed).value ++
          String.singleton '"' ∧
      (ofToken unterminated).raw =
        String.singleton '\'' ++ (ofToken unterminated).value := by
  intro text closed unterminated
  have isClosed : closed ∈ (lex text).tokens := by
    decide +kernel
  have isUnterminated : unterminated ∈ (lex text).tokens := by
    decide +kernel
  have notReported :
      ⟨.unterminatedString '"', closed.start⟩ ∉ (lex text).problems := by
    decide +kernel
  have reported :
      ⟨.unterminatedString '\'', unterminated.start⟩ ∈
        (lex text).problems := by
    decide +kernel
  refine ⟨isClosed, isUnterminated, notReported, reported, ?_, ?_⟩
  · have first : (ofToken closed).raw.toList.head? = some '"' := by
      decide +kernel
    obtain ⟨quote, -, begins, whenClosed, -⟩ :=
      strings_lose_delimiters text closed isClosed rfl
    obtain rfl := Option.some.inj (first.symm.trans begins)
    exact whenClosed notReported
  · have first : (ofToken unterminated).raw.toList.head? = some '\'' := by
      decide +kernel
    have endsOtherwise :
        ¬ EndsInEscapedQuote '\'' (ofToken unterminated).raw := by
      decide +kernel
    obtain ⟨quote, -, begins, -, whenOpen⟩ :=
      strings_lose_delimiters text unterminated isUnterminated rfl
    obtain rfl := Option.some.inj (first.symm.trans begins)
    exact (whenOpen reported).trans (if_neg endsOtherwise)

/-- An unterminated string whose last character is an escaped quote loses it. -/
theorem unterminated_string_loses_escaped_quote :
    let text := "set $x \"a\\\""
    let token : Token := ⟨.string, "\"a\\\"", 0, 7, 11⟩
    token ∈ (lex text).tokens ∧
      ⟨.unterminatedString '"', token.start⟩ ∈ (lex text).problems ∧
      (ofToken token).value = "a\\" ∧
      (ofToken token).raw ≠
        String.singleton '"' ++ (ofToken token).value := by
  decide +kernel

end Argument

end ScriptCompletion.Script
