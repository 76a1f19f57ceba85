import ScriptCompletion.Suggestion.Word

namespace ScriptCompletion.Suggestion

/-!
# The word that a suggestion replaces

The columns of the word at the cursor are found by going left and right from the
cursor as far as word characters go.  What is found is a whole word: word characters
only, and none right before or right behind it.  Two whole words that touch the same
column are the same word, so it does not matter from which of its columns the word is
looked for, and different words of a line stand apart.
-/

/-- Whether the character right behind a column of a line is a word character. -/
def isWordAt
    (characters : List Char)
    (column : Nat) : Bool :=
  characters[column]?.any isWordCharacter

/-- All characters between two columns of a line are word characters, and the ones
right before and right behind them are not, if there are any. -/
structure IsWholeWord
    (line : List Char)
    (start stop : Nat) : Prop where
  ordered : start ≤ stop
  inLine : stop ≤ line.length
  filled : ∀ column, start ≤ column → column < stop → isWordAt line column = true
  opens : ∀ column, column + 1 = start → isWordAt line column = false
  closes : isWordAt line stop = false

theorem isWordAt_drop
    (line : List Char)
    (column ahead : Nat) :
    isWordAt (line.drop column) ahead = isWordAt line (column + ahead) := by
  rw [isWordAt, isWordAt, List.getElem?_drop]

/-- Seen backwards from a column, the columns before it count down. -/
theorem isWordAt_reverse_take
    {line : List Char}
    {column back place : Nat}
    (inLine : column ≤ line.length)
    (mirrored : back + place + 1 = column) :
    isWordAt (line.take column).reverse back = isWordAt line place := by
  have lengthTaken : back + place + 1 = (line.take column).length := by
    rw [mirrored, List.length_take_of_le inLine]
  have before : place < column := by
    rw [← mirrored]
    exact Nat.lt_succ_of_le (Nat.le_add_left place back)
  rw [isWordAt, isWordAt, List.getElem?_reverse' lengthTaken,
    List.getElem?_take_of_lt before]

namespace IsWholeWord

/-- A line that does not begin with a word character begins with an empty word. -/
theorem of_isWordAt_eq_false
    {line : List Char}
    (closes : isWordAt line 0 = false) :
    IsWholeWord line 0 0 where
  ordered := Nat.le_refl 0
  inLine := Nat.zero_le _
  filled _ _ inside := absurd inside (Nat.not_lt_zero _)
  opens column isBefore := absurd isBefore (Nat.succ_ne_zero column)
  closes := closes

/-- One more word character in front of a line makes its first word longer. -/
theorem cons
    {line : List Char}
    {stop : Nat}
    {character : Char}
    (isWord : isWordCharacter character = true)
    (whole : IsWholeWord line 0 stop) :
    IsWholeWord (character :: line) 0 (stop + 1) where
  ordered := Nat.zero_le _
  inLine := Nat.succ_le_succ whole.inLine
  filled
    | 0, _, _ => isWord
    | column + 1, _, inside =>
        whole.filled column (Nat.zero_le _) (Nat.lt_of_succ_lt_succ inside)
  opens column isBefore := absurd isBefore (Nat.succ_ne_zero column)
  closes := whole.closes

/-- The word characters that a line begins with are a whole word. -/
theorem of_takeWhile (line : List Char) :
    IsWholeWord line 0 (line.takeWhile isWordCharacter).length := by
  induction line with
  | nil =>
      exact of_isWordAt_eq_false rfl
  | cons character rest inductionHypothesis =>
      cases isWord : isWordCharacter character with
      | false =>
          rw [List.takeWhile_cons_of_neg (Bool.eq_false_iff.mp isWord)]
          exact of_isWordAt_eq_false isWord
      | true =>
          rw [List.takeWhile_cons_of_pos isWord]
          exact inductionHypothesis.cons isWord

/-- What goes on to the left of a column and what goes on to its right make one
word. -/
theorem of_both_sides
    {line : List Char}
    {column back ahead : Nat}
    (inLine : column ≤ line.length)
    (left : IsWholeWord (line.take column).reverse 0 back)
    (right : IsWholeWord (line.drop column) 0 ahead) :
    IsWholeWord line (column - back) (column + ahead) := by
  have backInLine : back ≤ column := by
    have inMirrored := left.inLine
    rwa [List.length_reverse, List.length_take_of_le inLine] at inMirrored
  have aheadInLine : ahead ≤ line.length - column := by
    rw [← List.length_drop]
    exact right.inLine
  refine
    { ordered := Nat.le_trans (Nat.sub_le _ _) (Nat.le_add_right _ _)
      inLine := ?_, filled := ?_, opens := ?_, closes := ?_ }
  · calc column + ahead
        ≤ column + (line.length - column) := Nat.add_le_add_left aheadInLine column
      _ = line.length := Nat.add_sub_of_le inLine
  · intro place behindStart beforeStop
    rcases Nat.lt_or_ge place column with before | behind
    · -- The place is as far left of the column as the mirrored one is right of it.
      obtain ⟨offset, mirrored⟩ : ∃ offset, offset + place + 1 = column :=
        ⟨column - (place + 1), Nat.sub_add_cancel before⟩
      have inside : offset < back := by
        omega
      rw [← isWordAt_reverse_take inLine mirrored]
      exact left.filled offset (Nat.zero_le _) inside
    · obtain ⟨offset, rfl⟩ := Nat.exists_eq_add_of_le behind
      rw [← isWordAt_drop]
      exact right.filled offset (Nat.zero_le _) (Nat.lt_of_add_lt_add_left beforeStop)
  · intro place isBefore
    have mirrored : back + place + 1 = column := by
      rw [Nat.add_assoc, isBefore, Nat.add_sub_of_le backInLine]
    rw [← isWordAt_reverse_take inLine mirrored]
    exact left.closes
  · rw [← isWordAt_drop]
    exact right.closes

section TwoWords

variable {line : List Char} {start stop otherStart otherStop column : Nat}

/-- A whole word goes at least as far as another one that touches one of its
columns. -/
theorem covers
    (whole : IsWholeWord line start stop)
    (other : IsWholeWord line otherStart otherStop)
    (touched : start ≤ column ∧ column ≤ stop)
    (alsoTouched : otherStart ≤ column ∧ column ≤ otherStop) :
    start ≤ otherStart ∧ otherStop ≤ stop := by
  constructor
  · -- Otherwise the character right before the word belongs to the other word.
    apply Nat.le_of_not_lt
    intro further
    obtain ⟨place, rfl⟩ :=
      Nat.exists_eq_succ_of_ne_zero (Nat.ne_zero_of_lt further)
    have held : isWordAt line place = true :=
      other.filled place (Nat.le_of_lt_succ further)
        (Nat.le_trans touched.1 alsoTouched.2)
    exact Bool.eq_false_iff.mp (whole.opens place rfl) held
  · -- Otherwise the character right behind the word belongs to the other word.
    apply Nat.le_of_not_lt
    intro further
    have held : isWordAt line stop = true :=
      other.filled stop (Nat.le_trans alsoTouched.1 touched.2) further
    exact Bool.eq_false_iff.mp whole.closes held

/-- Only one whole word touches a column. -/
theorem eq_of_touched
    (whole : IsWholeWord line start stop)
    (other : IsWholeWord line otherStart otherStop)
    (touched : start ≤ column ∧ column ≤ stop)
    (alsoTouched : otherStart ≤ column ∧ column ≤ otherStop) :
    (start, stop) = (otherStart, otherStop) := by
  have covering := whole.covers other touched alsoTouched
  have covered := other.covers whole alsoTouched touched
  rw [Nat.le_antisymm covering.1 covered.1, Nat.le_antisymm covered.2 covering.2]

/-- Whole words of a line are the same, or one ends before the other starts. -/
theorem eq_or_apart
    (whole : IsWholeWord line start stop)
    (other : IsWholeWord line otherStart otherStop) :
    (start, stop) = (otherStart, otherStop) ∨
      stop < otherStart ∨
      otherStop < start := by
  rcases Nat.lt_or_ge stop otherStart with before | reaches
  · exact .inr (.inl before)
  rcases Nat.lt_or_ge otherStop start with behind | alsoReaches
  · exact .inr (.inr behind)
  -- The start that is further right is a column that both of them touch.
  left
  exact whole.eq_of_touched other
    ⟨Nat.le_max_left start otherStart, Nat.max_le.mpr ⟨whole.ordered, reaches⟩⟩
    ⟨Nat.le_max_right start otherStart,
      Nat.max_le.mpr ⟨alsoReaches, other.ordered⟩⟩

end TwoWords

end IsWholeWord

/-- The word at a column touches it, or the end of the line where the column is further
right. -/
theorem wordColumns_touches
    (line : List Char)
    (column : Nat) :
    (wordColumns line column).1 ≤ min column line.length ∧
      min column line.length ≤ (wordColumns line column).2 :=
  ⟨Nat.sub_le _ _, Nat.le_add_right _ _⟩

theorem isWholeWord_wordColumns
    (line : List Char)
    (column : Nat) :
    IsWholeWord line (wordColumns line column).1 (wordColumns line column).2 :=
  .of_both_sides (Nat.min_le_right _ _) (.of_takeWhile _) (.of_takeWhile _)

/-- A whole word is found from every column that it touches. -/
theorem wordColumns_eq_of_touched
    {line : List Char}
    {start stop column : Nat}
    (whole : IsWholeWord line start stop)
    (touched : start ≤ column ∧ column ≤ stop) :
    wordColumns line column = (start, stop) := by
  have inLine : min column line.length = column :=
    Nat.min_eq_left (Nat.le_trans touched.2 whole.inLine)
  have found := wordColumns_touches line column
  rw [inLine] at found
  exact (isWholeWord_wordColumns line column).eq_of_touched whole found touched

theorem wordSpan_of_wordColumns_eq
    {line : String}
    {first second : Nat}
    (same : wordColumns line.toList first = wordColumns line.toList second)
    (number : Nat) :
    wordSpan line ⟨number, first⟩ = wordSpan line ⟨number, second⟩ := by
  simp only [wordSpan, same]

/--
A suggestion replaces the whole word at the cursor, for every text of a line and every
cursor.  The replaced stretch lies on the line of the cursor, inside the text, and touches
the cursor, or the end of the text where the cursor is further right.  It holds word
characters only, and none stands right before or right behind it.  Every cursor inside it
or at one of its ends gives the same stretch, and a cursor anywhere else on the line gives
one that is apart from it.
-/
theorem replaced_word_whole_and_stable
    (line : String)
    (cursor : Position) :
    let characters := line.toList
    let span := wordSpan line cursor
    (span.start.line = cursor.line ∧ span.stop.line = cursor.line) ∧
      (span.start.column ≤ min cursor.column characters.length ∧
        min cursor.column characters.length ≤ span.stop.column ∧
        span.stop.column ≤ characters.length) ∧
      IsWholeWord characters span.start.column span.stop.column ∧
      (∀ column,
        span.start.column ≤ column →
        column ≤ span.stop.column →
        wordSpan line ⟨cursor.line, column⟩ = span) ∧
      ∀ column,
        let other := wordSpan line ⟨cursor.line, column⟩
        span = other ∨ span.stop < other.start ∨ other.stop < span.start := by
  intro characters span
  have whole := isWholeWord_wordColumns characters cursor.column
  have touches := wordColumns_touches characters cursor.column
  refine ⟨⟨rfl, rfl⟩, ⟨touches.1, touches.2, whole.inLine⟩, whole, ?_, ?_⟩
  · intro column behindStart beforeStop
    have same : wordColumns characters column = wordColumns characters cursor.column :=
      wordColumns_eq_of_touched whole ⟨behindStart, beforeStop⟩
    exact wordSpan_of_wordColumns_eq same cursor.line
  · intro column other
    rcases whole.eq_or_apart (isWholeWord_wordColumns characters column) with
      same | before | behind
    · exact .inl (wordSpan_of_wordColumns_eq same cursor.line)
    · exact .inr (.inl (.inr ⟨rfl, before⟩))
    · exact .inr (.inr (.inr ⟨rfl, behind⟩))

/--
A word with an accent between a space and an ideographic space: it is found from its two
ends, and apart from it the word at the end of the line, from a cursor behind the end.
-/
theorem replaced_word_whole_and_stable_accented :
    let line := "exec $tokén\u3000\"transfer(address)\" @me"
    let span := wordSpan line ⟨4, 8⟩
    span = .onLine 4 5 11 ∧
      IsWholeWord line.toList 5 11 ∧
      wordSpan line ⟨4, 5⟩ = span ∧
      wordSpan line ⟨4, 11⟩ = span ∧
      span.stop < (wordSpan line ⟨4, 99⟩).start := by
  intro line span
  have found : span = .onLine 4 5 11 := by
    decide +kernel
  have differs : span ≠ wordSpan line ⟨4, 99⟩ := by
    decide +kernel
  have notBehind : ¬ (wordSpan line ⟨4, 99⟩).stop < span.start := by
    decide +kernel
  obtain ⟨-, -, whole, stable, apart⟩ :=
    replaced_word_whole_and_stable line ⟨4, 8⟩
  have wholeSpan : IsWholeWord line.toList span.start.column span.stop.column := whole
  rw [found] at wholeSpan
  exact ⟨found, wholeSpan,
    stable 5 (by decide +kernel) (by decide +kernel),
    stable 11 (by decide +kernel) (by decide +kernel),
    ((apart 99).resolve_left differs).resolve_right notBehind⟩

end ScriptCompletion.Suggestion
