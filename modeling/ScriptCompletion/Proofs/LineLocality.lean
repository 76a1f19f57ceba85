import ScriptCompletion.Proofs.CharacterPlaces
import ScriptCompletion.Proofs.LineComposition

namespace ScriptCompletion

/-!
# Lines are lexed on their own

Below a text, the line feed behind it takes the place of its end, and the lines of
another text are lexed as they are on their own.  So what stands on one line of a
text comes from that line alone: a quote, a bracket or a parenthesis that is left
open on another line has no say in it.
-/

/-- A text without a line feed is one line. -/
theorem Text.Lines.ofChars_of_not_mem
    {line : List Char}
    (noBreak : '\n' ∉ line) :
    ofChars line = ⟨line, []⟩ := by
  induction line with
  | nil =>
      rfl
  | cons character rest inductionHypothesis =>
      rw [List.mem_cons, not_or] at noBreak
      have unfolded :
          ofChars (character :: rest) = push character (ofChars rest) :=
        rfl
      rw [unfolded, inductionHypothesis noBreak.2, push,
        if_neg (Ne.symm noBreak.1)]

namespace Script

/-- What stands on one line, without the end of the line. -/
def Lexing.ofLine
    (number : Nat)
    (lexing : Lexing) : Lexing where
  tokens :=
    lexing.tokens.filter fun token =>
      token.line = number ∧ token.kind.endsLine = false
  problems :=
    lexing.problems.filter fun problem => problem.position.line = number

/-- The problems of a line stand on it. -/
theorem line_of_mem_problems_lexLine
    {line : List Char}
    (noBreak : '\n' ∉ line)
    {number : Nat}
    {problem : Problem}
    (member : problem ∈ (lexLine number line).problems) :
    problem.position.line = number := by
  have nothing : (Lexer.onLine number).ReportsTokens := by
    intro problem member
    cases member
  have read := (nothing.foldl_step line).interrupt
  rw [Lexer.foldl_step_eq_advance noBreak] at read
  obtain ⟨token, recorded, isStart⟩ :=
    read problem (List.mem_reverse.mp member)
  have onLine :=
    (areOnLine_lexLine number line token (List.mem_reverse.mpr recorded)).1
  rw [← isStart]
  exact onLine

/-- All that a line is read as stands on it. -/
theorem ofLine_lexLine
    {line : List Char}
    (noBreak : '\n' ∉ line)
    (number : Nat) :
    (lexLine number line).ofLine number = lexLine number line := by
  have tokens :
      ∀ token ∈ (lexLine number line).tokens,
        decide (token.line = number ∧ token.kind.endsLine = false) = true :=
    fun token member => decide_eq_true (areOnLine_lexLine number line token member)
  have problems :
      ∀ problem ∈ (lexLine number line).problems,
        decide (problem.position.line = number) = true :=
    fun problem member =>
      decide_eq_true (line_of_mem_problems_lexLine noBreak member)
  rw [Lexing.ofLine, List.filter_eq_self.mpr tokens,
    List.filter_eq_self.mpr problems]

/-- Nothing that a line is read as stands on another one. -/
theorem ofLine_lexLine_of_ne
    {line : List Char}
    (noBreak : '\n' ∉ line)
    {number other : Nat}
    (elsewhere : number ≠ other) :
    (lexLine number line).ofLine other = ⟨[], []⟩ := by
  have tokens :
      ∀ token ∈ (lexLine number line).tokens,
        ¬ decide (token.line = other ∧ token.kind.endsLine = false) = true := by
    intro token member onOther
    have onLine := (areOnLine_lexLine number line token member).1
    exact elsewhere (onLine.symm.trans (of_decide_eq_true onOther).1)
  have problems :
      ∀ problem ∈ (lexLine number line).problems,
        ¬ decide (problem.position.line = other) = true := by
    intro problem member onOther
    have onLine := line_of_mem_problems_lexLine noBreak member
    exact elsewhere (onLine.symm.trans (of_decide_eq_true onOther))
  rw [Lexing.ofLine, List.filter_eq_nil_iff.mpr tokens,
    List.filter_eq_nil_iff.mpr problems]

/-- The last of numbered lines has nothing but its own. -/
theorem ofLine_lexLines_nil
    (number : Nat)
    (line : List Char)
    (own : Nat) :
    (lexLines number line []).ofLine own = (lexLine number line).ofLine own := by
  simp [Lexing.ofLine, lexLines, textEnd, TokenKind.endsLine]

/-- What stands on a line is read from the first line or from the others. -/
theorem ofLine_lexLines_cons
    (number : Nat)
    (line next : List Char)
    (rest : List (List Char))
    (own : Nat) :
    let here := (lexLine number line).ofLine own
    let later := (lexLines (number + 1) next rest).ofLine own
    (lexLines number line (next :: rest)).ofLine own =
      ⟨here.tokens ++ later.tokens, here.problems ++ later.problems⟩ := by
  simp [Lexing.ofLine, lexLines, lineBreak, TokenKind.endsLine]

/-- Nothing that numbered lines are read as stands above them. -/
theorem ofLine_lexLines_of_lt
    {line : List Char}
    {later : List (List Char)}
    (noBreak : ∀ own ∈ line :: later, '\n' ∉ own)
    {number earlier : Nat}
    (above : earlier < number) :
    (lexLines number line later).ofLine earlier = ⟨[], []⟩ := by
  induction later generalizing number line with
  | nil =>
      rw [ofLine_lexLines_nil]
      exact ofLine_lexLine_of_ne (noBreak line (by simp)) (Nat.ne_of_gt above)
  | cons next rest inductionHypothesis =>
      obtain ⟨noBreakHere, noBreakLater⟩ := List.forall_mem_cons.mp noBreak
      rw [ofLine_lexLines_cons,
        ofLine_lexLine_of_ne noBreakHere (Nat.ne_of_gt above),
        inductionHypothesis noBreakLater (Nat.lt_succ_of_lt above)]
      rfl

/-- What stands on one of several numbered lines is read from it. -/
theorem ofLine_lexLines
    {line : List Char}
    {later : List (List Char)}
    (noBreak : ∀ own ∈ line :: later, '\n' ∉ own)
    {index : Nat}
    {own : List Char}
    (isOwn : (line :: later)[index]? = some own)
    (number : Nat) :
    (lexLines number line later).ofLine (number + index) =
      lexLine (number + index) own := by
  induction later generalizing number line index with
  | nil =>
      cases index with
      | zero =>
          cases isOwn
          rw [ofLine_lexLines_nil]
          exact ofLine_lexLine (noBreak own (by simp)) number
      | succ index =>
          cases isOwn
  | cons next rest inductionHypothesis =>
      obtain ⟨noBreakHere, noBreakLater⟩ := List.forall_mem_cons.mp noBreak
      cases index with
      | zero =>
          cases isOwn
          rw [Nat.add_zero, ofLine_lexLines_cons, ofLine_lexLine noBreakHere,
            ofLine_lexLines_of_lt noBreakLater (Nat.lt_succ_self number)]
          simp
      | succ index =>
          have behind :=
            inductionHypothesis noBreakLater (by simpa using isOwn)
              (number + 1)
          have sameLine : number + 1 + index = number + (index + 1) := by
            omega
          have notHere : number ≠ number + (index + 1) := by
            omega
          rw [sameLine] at behind
          rw [ofLine_lexLines_cons, ofLine_lexLine_of_ne noBreakHere notHere,
            behind]
          rfl

/-- A line on its own is a text. -/
theorem lex_ofList
    {line : List Char}
    (noBreak : '\n' ∉ line) :
    lex (String.ofList line) = lexLines 0 line [] := by
  rw [lex_eq_lexLines, Text.Lines.ofText, String.toList_ofList,
    Text.Lines.ofChars_of_not_mem noBreak]

/-- What stands on a line of a text is what the line is read as on its own, only
further down. -/
theorem ofLine_lex
    {text : String}
    {number : Nat}
    {line : List Char}
    (isLine : (Text.Lines.ofText text).get? number = some line) :
    (lex text).ofLine number =
      ((lex (String.ofList line)).ofLine 0).shift number := by
  have noBreak : '\n' ∉ line :=
    Text.Lines.newline_not_mem (List.mem_of_getElem? isLine)
  have alone : (lex (String.ofList line)).ofLine 0 = lexLine 0 line := by
    rw [lex_ofList noBreak, ofLine_lexLines_nil, ofLine_lexLine noBreak]
  have inText :=
    ofLine_lexLines (Text.Lines.newline_not_mem_ofText text) isLine 0
  rw [Nat.zero_add] at inText
  rw [alone, ← lexLine_shift, Nat.zero_add, lex_eq_lexLines, inText]

/--
Lexing is local to the lines.  For all texts, the first with the second below it has
the tokens of the first without its end, one line feed where the first ends, and, so
many lines further down as the first has, the tokens of the second; and its problems
are those of the first followed by those of the second, moved down alike.  So what
stands on any line of it is what that line alone is read as, whatever the other
lines leave open.
-/
theorem lexing_line_local (first second : String) :
    let stop : Position := Text.endOf first
    let lines := (Text.Lines.ofText first).toList.length
    let text := first ++ "\n" ++ second
    (∃ front,
      (lex first).tokens =
          front ++ [⟨.endOfText, "", stop.line, stop.column, stop.column⟩] ∧
        (lex text).tokens =
          front ++
            ⟨.newline, "\n", stop.line, stop.column, stop.column + 1⟩ ::
              (lex second).tokens.map (Token.shift lines)) ∧
      (lex text).problems =
        (lex first).problems ++
          (lex second).problems.map (Problem.shift lines) ∧
      ∀ number line,
        (Text.Lines.ofText text).get? number = some line →
        (lex text).ofLine number =
          ((lex (String.ofList line)).ofLine 0).shift number := by
  intro stop lines text
  refine ⟨?_, problems_lex_append first second, fun _ _ => ofLine_lex⟩
  simp only [stop, Text.endOf_eq]
  exact tokens_lex_append first second

end Script

end ScriptCompletion
