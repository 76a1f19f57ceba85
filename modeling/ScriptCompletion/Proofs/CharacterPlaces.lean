import ScriptCompletion.Proofs.LineLexing

namespace ScriptCompletion

/-!
# Where the characters of a text stand

Going through a text, a character leads one column further and a line feed leads
to the start of the next line.  So every character of a text has a position, and
so has the end of the text.  The characters of a line stand side by side on it,
and the line feed stands behind the last of them.
-/

/-- The position behind a character. -/
def Position.behind
    (position : Position)
    (character : Char) : Position :=
  if character = '\n' then
    ⟨position.line + 1, 0⟩
  else
    ⟨position.line, position.column + 1⟩

theorem Position.behind_of_ne
    {character : Char}
    (notBreak : character ≠ '\n')
    (line column : Nat) :
    Position.behind ⟨line, column⟩ character = ⟨line, column + 1⟩ := by
  simp [Position.behind, notBreak]

/-- Whether a character at the position lies in the stretch. -/
def Span.Holds
    (span : Span)
    (position : Position) : Prop :=
  span.start ≤ position ∧ position < span.stop

instance (span : Span) (position : Position) : Decidable (span.Holds position) :=
  inferInstanceAs (Decidable (span.start ≤ position ∧ position < span.stop))

/-- A stretch of one line holds the columns between its ends. -/
theorem Span.holds_onLine_iff
    {line start stop : Nat}
    {position : Position} :
    (Span.onLine line start stop).Holds position ↔
      position.line = line ∧
        start ≤ position.column ∧
        position.column < stop := by
  simp only [Holds, onLine, Position.le_iff, Position.lt_iff]
  omega

namespace Text

/-- A character of a text and where it stands. -/
structure Spot where
  position : Position
  character : Char
deriving Repr, DecidableEq

/-- The characters of a text that goes on at a position. -/
def spotsFrom
    (position : Position) : List Char → List Spot
  | [] =>
      []
  | character :: rest =>
      ⟨position, character⟩ :: spotsFrom (position.behind character) rest

/-- The characters of a text, each with its position. -/
def spots (text : String) : List Spot :=
  spotsFrom ⟨0, 0⟩ text.toList

/-- The position behind the last character of a text. -/
def endOf (text : String) : Position :=
  text.toList.foldl Position.behind ⟨0, 0⟩

/-- The characters among the given ones that lie in a stretch. -/
def heldBy
    (span : Span)
    (spots : List Spot) : List Char :=
  (spots.filter fun spot => span.Holds spot.position).map Spot.character

/-- The characters of a text that lie in a stretch, in order. -/
def within
    (text : String)
    (span : Span) : String :=
  String.ofList (heldBy span (spots text))

theorem spotsFrom_append
    (position : Position)
    (first second : List Char) :
    spotsFrom position (first ++ second) =
      spotsFrom position first ++
        spotsFrom (first.foldl Position.behind position) second := by
  induction first generalizing position with
  | nil =>
      rfl
  | cons character rest inductionHypothesis =>
      simp only [List.cons_append, spotsFrom, List.foldl_cons,
        inductionHypothesis]

/-- A line leads as many columns further as it has characters. -/
theorem foldl_behind_line
    {line : List Char}
    (noBreak : '\n' ∉ line)
    (number column : Nat) :
    line.foldl Position.behind ⟨number, column⟩ =
      ⟨number, column + line.length⟩ := by
  induction line generalizing column with
  | nil =>
      rfl
  | cons character rest inductionHypothesis =>
      rw [List.mem_cons, not_or] at noBreak
      have oneFurther :=
        Position.behind_of_ne (Ne.symm noBreak.1) number column
      rw [List.foldl_cons, oneFurther, inductionHypothesis noBreak.2,
        List.length_cons]
      congr 1
      omega

/-- The characters of a line stand side by side. -/
theorem mem_spotsFrom_line
    {line : List Char}
    (noBreak : '\n' ∉ line)
    {number column : Nat}
    {spot : Spot} :
    spot ∈ spotsFrom ⟨number, column⟩ line ↔
      spot.position.line = number ∧
        column ≤ spot.position.column ∧
        getElem? line (spot.position.column - column) = some spot.character := by
  induction line generalizing column with
  | nil =>
      simp [spotsFrom]
  | cons character rest inductionHypothesis =>
      rw [List.mem_cons, not_or] at noBreak
      have oneFurther :=
        Position.behind_of_ne (Ne.symm noBreak.1) number column
      rw [spotsFrom, List.mem_cons, oneFurther,
        inductionHypothesis noBreak.2]
      obtain ⟨⟨ownLine, ownColumn⟩, ownCharacter⟩ := spot
      simp only [Spot.mk.injEq, Position.mk.injEq]
      rcases Nat.lt_trichotomy ownColumn column with before | here | behind
      · have notBehind : ¬ column + 1 ≤ ownColumn := by
          omega
        have notHere : ¬ column ≤ ownColumn := by
          omega
        simp [notBehind, notHere, Nat.ne_of_lt before]
      · subst ownColumn
        have notBehind : ¬ column + 1 ≤ column := by
          omega
        simp [notBehind, eq_comm]
      · have split :
            ownColumn - column = ownColumn - (column + 1) + 1 := by
          omega
        simp [split, Nat.ne_of_gt behind, Nat.le_of_lt behind,
          Nat.succ_le_of_lt behind]

theorem heldBy_append
    (span : Span)
    (first second : List Spot) :
    heldBy span (first ++ second) =
      heldBy span first ++ heldBy span second := by
  simp [heldBy]

theorem heldBy_cons
    (span : Span)
    (spot : Spot)
    (rest : List Spot) :
    heldBy span (spot :: rest) =
      if span.Holds spot.position then
        spot.character :: heldBy span rest
      else
        heldBy span rest := by
  by_cases holds : span.Holds spot.position <;>
    simp [heldBy, holds]

/-- A stretch of a line holds nothing of other lines. -/
theorem heldBy_of_line_ne
    {number : Nat}
    {spots : List Spot}
    (elsewhere : ∀ spot ∈ spots, spot.position.line ≠ number)
    (start stop : Nat) :
    heldBy (.onLine number start stop) spots = [] := by
  rw [heldBy, List.map_eq_nil_iff, List.filter_eq_nil_iff]
  intro spot member holds
  rw [decide_eq_true_eq, Span.holds_onLine_iff] at holds
  exact elsewhere spot member holds.1

/-- What lies between two columns of a line is a stretch of its characters. -/
theorem heldBy_line
    {line : List Char}
    (noBreak : '\n' ∉ line)
    (number column start stop : Nat) :
    heldBy (.onLine number start stop) (spotsFrom ⟨number, column⟩ line) =
      (line.take (stop - column)).drop (start - column) := by
  induction line generalizing column with
  | nil =>
      simp [spotsFrom, heldBy]
  | cons character rest inductionHypothesis =>
      rw [List.mem_cons, not_or] at noBreak
      have oneFurther :=
        Position.behind_of_ne (Ne.symm noBreak.1) number column
      have later := inductionHypothesis noBreak.2 (column + 1)
      rw [spotsFrom, oneFurther, heldBy_cons]
      by_cases inTime : column < stop
      · have taken : stop - column = stop - (column + 1) + 1 := by
          omega
        by_cases begun : start ≤ column
        · have nothingDropped : start - column = 0 := by
            omega
          have nothingDroppedLater : start - (column + 1) = 0 := by
            omega
          have holds :
              (Span.onLine number start stop).Holds ⟨number, column⟩ :=
            Span.holds_onLine_iff.mpr ⟨rfl, begun, inTime⟩
          rw [nothingDroppedLater, List.drop_zero] at later
          simp [holds, later, taken, nothingDropped]
        · have dropped : start - column = start - (column + 1) + 1 := by
            omega
          have outside :
              ¬ (Span.onLine number start stop).Holds ⟨number, column⟩ :=
            fun holds => begun (Span.holds_onLine_iff.mp holds).2.1
          simp [outside, later, taken, dropped]
      · have nothingTaken : stop - column = 0 := by
          omega
        have nothingTakenLater : stop - (column + 1) = 0 := by
          omega
        have outside :
            ¬ (Span.onLine number start stop).Holds ⟨number, column⟩ :=
          fun holds => inTime (Span.holds_onLine_iff.mp holds).2.2
        rw [nothingTakenLater] at later
        simpa [outside, nothingTaken] using later

/-!
## Numbered lines
-/

/-- Lines with the line feeds between them. -/
def joinLines
    (line : List Char)
    (later : List (List Char)) : List Char :=
  line ++ later.flatMap fun next => '\n' :: next

/-- The characters of numbered lines and of the line feeds between them. -/
def lineSpots
    (number : Nat)
    (line : List Char)
    (later : List (List Char)) : List Spot :=
  spotsFrom ⟨number, 0⟩ (joinLines line later)

theorem lineSpots_nil
    (number : Nat)
    (line : List Char) :
    lineSpots number line [] = spotsFrom ⟨number, 0⟩ line := by
  simp [lineSpots, joinLines]

/-- The line feed behind a line leads to the next one. -/
theorem lineSpots_cons
    {line : List Char}
    (noBreak : '\n' ∉ line)
    (number : Nat)
    (next : List Char)
    (rest : List (List Char)) :
    lineSpots number line (next :: rest) =
      spotsFrom ⟨number, 0⟩ line ++
        ⟨⟨number, line.length⟩, '\n'⟩ :: lineSpots (number + 1) next rest := by
  have lineEnd := foldl_behind_line noBreak number 0
  rw [Nat.zero_add] at lineEnd
  simp only [lineSpots, joinLines, List.flatMap_cons, spotsFrom_append,
    List.cons_append, spotsFrom, lineEnd]
  rfl

/-- A character of numbered lines stands on one of them. -/
theorem exists_line_of_mem_lineSpots
    {number : Nat}
    {line : List Char}
    {later : List (List Char)}
    (noBreak : ∀ own ∈ line :: later, '\n' ∉ own)
    {spot : Spot}
    (member : spot ∈ lineSpots number line later) :
    ∃ index own,
      (line :: later)[index]? = some own ∧
        spot.position.line = number + index := by
  induction later generalizing number line with
  | nil =>
      rw [lineSpots_nil, mem_spotsFrom_line (noBreak line (by simp))] at member
      exact ⟨0, line, rfl, member.1⟩
  | cons next rest inductionHypothesis =>
      obtain ⟨noBreakHere, noBreakLater⟩ := List.forall_mem_cons.mp noBreak
      rw [lineSpots_cons noBreakHere, List.mem_append, List.mem_cons,
        mem_spotsFrom_line noBreakHere] at member
      rcases member with inLine | isBreak | isLater
      · exact ⟨0, line, rfl, inLine.1⟩
      · exact ⟨0, line, rfl, by rw [isBreak]; rfl⟩
      · obtain ⟨index, own, isOwn, onLine⟩ :=
          inductionHypothesis noBreakLater isLater
        exact ⟨index + 1, own, by simpa using isOwn, by omega⟩

/-- The characters on one of several numbered lines are its own and, if another
line follows, the line feed behind them. -/
theorem mem_lineSpots_iff
    {number : Nat}
    {line : List Char}
    {later : List (List Char)}
    (noBreak : ∀ own ∈ line :: later, '\n' ∉ own)
    {index : Nat}
    {own : List Char}
    (isOwn : (line :: later)[index]? = some own)
    {spot : Spot}
    (onLine : spot.position.line = number + index) :
    spot ∈ lineSpots number line later ↔
      own[spot.position.column]? = some spot.character ∨
        index < later.length ∧
          spot.position.column = own.length ∧
          spot.character = '\n' := by
  induction later generalizing number line index with
  | nil =>
      cases index with
      | zero =>
          cases isOwn
          rw [lineSpots_nil, mem_spotsFrom_line (noBreak own (by simp))]
          simp [onLine]
      | succ index =>
          cases isOwn
  | cons next rest inductionHypothesis =>
      obtain ⟨noBreakHere, noBreakLater⟩ := List.forall_mem_cons.mp noBreak
      rw [lineSpots_cons noBreakHere, List.mem_append, List.mem_cons,
        mem_spotsFrom_line noBreakHere]
      cases index with
      | zero =>
          cases isOwn
          have notLater : spot ∉ lineSpots (number + 1) next rest := by
            intro isLater
            obtain ⟨index, -, -, onLater⟩ :=
              exists_line_of_mem_lineSpots noBreakLater isLater
            omega
          obtain ⟨⟨ownLine, ownColumn⟩, ownCharacter⟩ := spot
          simp only [Nat.add_zero] at onLine
          subst ownLine
          simp [notLater]
      | succ index =>
          have notHere : spot.position.line ≠ number := by
            omega
          have notBreak : spot ≠ ⟨⟨number, line.length⟩, '\n'⟩ := by
            rintro rfl
            exact notHere rfl
          have onLaterLine : spot.position.line = number + 1 + index := by
            omega
          have behind :=
            inductionHypothesis noBreakLater (by simpa using isOwn)
              onLaterLine
          simp [notHere, notBreak, behind]

/-- A line feed behind a line is held behind what is held of the line. -/
theorem drop_take_concat
    (line : List Char)
    (start stop : Nat) :
    ((line ++ ['\n']).take stop).drop start =
      (line.take stop).drop start ++
        if start ≤ line.length ∧ line.length < stop then ['\n'] else [] := by
  rw [List.take_append, List.drop_append, List.length_take]
  congr 1
  by_cases reached : line.length < stop
  · obtain ⟨more, further⟩ : ∃ more, stop - line.length = more + 1 :=
      ⟨stop - line.length - 1, by omega⟩
    have shorter : min stop line.length = line.length := by
      omega
    rw [further, shorter]
    by_cases begun : start ≤ line.length
    · simp [reached, begun, Nat.sub_eq_zero_of_le begun]
    · obtain ⟨dropped, skips⟩ : ∃ dropped, start - line.length = dropped + 1 :=
        ⟨start - line.length - 1, by omega⟩
      simp [begun, skips]
  · simp [reached, Nat.sub_eq_zero_of_le (Nat.le_of_not_lt reached)]

/-- What lies between two columns of a numbered line is a stretch of it and of
the line feed behind it. -/
theorem heldBy_lineSpots
    {number : Nat}
    {line : List Char}
    {later : List (List Char)}
    (noBreak : ∀ own ∈ line :: later, '\n' ∉ own)
    {index : Nat}
    {own : List Char}
    (isOwn : (line :: later)[index]? = some own)
    (start stop : Nat) :
    heldBy (.onLine (number + index) start stop)
        (lineSpots number line later) =
      (((if index < later.length then own ++ ['\n'] else own).take
        stop).drop start) := by
  have held
      {line : List Char}
      (noBreakHere : '\n' ∉ line)
      (number : Nat) :
      heldBy (.onLine number start stop) (spotsFrom ⟨number, 0⟩ line) =
        (line.take stop).drop start :=
    heldBy_line noBreakHere number 0 start stop
  induction later generalizing number line index with
  | nil =>
      cases index with
      | zero =>
          cases isOwn
          rw [lineSpots_nil]
          simpa using held (noBreak own (by simp)) number
      | succ index =>
          cases isOwn
  | cons next rest inductionHypothesis =>
      obtain ⟨noBreakHere, noBreakLater⟩ := List.forall_mem_cons.mp noBreak
      rw [lineSpots_cons noBreakHere, heldBy_append, heldBy_cons]
      cases index with
      | zero =>
          cases isOwn
          have noneLater :
              heldBy (.onLine number start stop)
                (lineSpots (number + 1) next rest) = [] := by
            apply heldBy_of_line_ne
            intro spot isLater
            obtain ⟨index, -, -, onLater⟩ :=
              exists_line_of_mem_lineSpots noBreakLater isLater
            omega
          have followed : 0 < (next :: rest).length := by
            simp
          rw [Nat.add_zero, held noBreakHere, noneLater, if_pos followed,
            drop_take_concat]
          simp [Span.holds_onLine_iff]
      | succ index =>
          have isLater : (next :: rest)[index]? = some own := by
            simpa using isOwn
          have sameLine : number + (index + 1) = number + 1 + index := by
            omega
          have behind :
              heldBy (.onLine (number + (index + 1)) start stop)
                (lineSpots (number + 1) next rest) = _ :=
            sameLine ▸ inductionHypothesis noBreakLater isLater
          have noneHere :
              heldBy (.onLine (number + (index + 1)) start stop)
                (spotsFrom ⟨number, 0⟩ line) = [] := by
            apply heldBy_of_line_ne
            intro spot inLine
            have := ((mem_spotsFrom_line noBreakHere).mp inLine).1
            omega
          have notBreak :
              ¬ (Span.onLine (number + (index + 1)) start stop).Holds
                ⟨number, line.length⟩ := by
            intro holds
            have : number = number + (index + 1) :=
              (Span.holds_onLine_iff.mp holds).1
            omega
          rw [noneHere, if_neg notBreak, behind]
          simp

/-- Numbered lines end behind the last of them. -/
theorem foldl_behind_joinLines
    {line : List Char}
    {later : List (List Char)}
    (noBreak : ∀ own ∈ line :: later, '\n' ∉ own)
    (number : Nat) :
    (joinLines line later).foldl Position.behind ⟨number, 0⟩ =
      ⟨number + later.length, (later.getLastD line).length⟩ := by
  induction later generalizing number line with
  | nil =>
      simpa [joinLines] using
        foldl_behind_line (noBreak line (by simp)) number 0
  | cons next rest inductionHypothesis =>
      obtain ⟨noBreakHere, noBreakLater⟩ := List.forall_mem_cons.mp noBreak
      have lineEnd := foldl_behind_line noBreakHere number 0
      have behind := inductionHypothesis noBreakLater (number + 1)
      have split :
          joinLines line (next :: rest) =
            line ++ '\n' :: joinLines next rest := by
        simp [joinLines]
      have broken :
          Position.behind ⟨number, 0 + line.length⟩ '\n' = ⟨number + 1, 0⟩ :=
        rfl
      rw [split, List.foldl_append, List.foldl_cons, lineEnd, broken, behind,
        List.getLastD_cons, List.length_cons]
      congr 1
      omega

section OfText

variable (text : String)

/-- No line of a text holds a line feed. -/
theorem Lines.newline_not_mem_ofText :
    ∀ own ∈ (Lines.ofText text).first :: (Lines.ofText text).later,
      '\n' ∉ own :=
  fun _ member => Lines.newline_not_mem member

theorem joinLines_ofText :
    joinLines (Lines.ofText text).first (Lines.ofText text).later =
      text.toList :=
  Lines.join_ofChars text.toList

/-- The characters of a text are those of its lines and the line feeds between
them. -/
theorem spots_eq_lineSpots :
    spots text =
      lineSpots 0 (Lines.ofText text).first (Lines.ofText text).later := by
  rw [lineSpots, joinLines_ofText, spots]

/-- A text ends behind its last line. -/
theorem endOf_eq :
    endOf text =
      ⟨(Lines.ofText text).later.length,
        ((Lines.ofText text).later.getLastD
          (Lines.ofText text).first).length⟩ := by
  have ended :=
    foldl_behind_joinLines (Lines.newline_not_mem_ofText text) 0
  rwa [joinLines_ofText, Nat.zero_add] at ended

end OfText

end Text

end ScriptCompletion
