import ScriptCompletion.Proofs.ParserOutline

namespace ScriptCompletion.Script

/-!
# The order of an outline

Tokens that come line by line make an outline whose events come line by line;
blocks that are never closed end behind all lines.  And tokens behind a line
make events behind it, whatever was read before.
-/

namespace Parser

/-- The ends of blocks that are left open. -/
def unclosed
    (stop : Position)
    (blocks : List OpenBlock) : List Event :=
  blocks.map fun block => .close (some ⟨block.opening.start, stop⟩) false

theorem line?_of_mem_unclosed
    {stop : Position}
    {blocks : List OpenBlock}
    {event : Event}
    (member : event ∈ unclosed stop blocks) :
    event.line? = none := by
  obtain ⟨block, -, rfl⟩ := List.mem_map.mp member
  rfl

/-- Leaving all blocks adds their ends, innermost first. -/
theorem leaveBlocks_eq
    {parser : Parser}
    {blocks : List OpenBlock}
    (opened : parser.blocks = blocks)
    (stop : Position) :
    (parser.leaveBlocks stop blocks).outline =
        parser.outline ++ unclosed stop blocks ∧
      (parser.leaveBlocks stop blocks).blocks = [] := by
  induction blocks generalizing parser with
  | nil =>
      simp [leaveBlocks, unclosed, opened]
  | cons block outer inductionHypothesis =>
      have stillOpen :
          ((parser.leaveBlock block outer stop false).report
              .unclosedBlock block.opening).blocks = outer :=
        rfl
      obtain ⟨sameOutline, noBlocks⟩ := inductionHypothesis stillOpen
      have left :
          ((parser.leaveBlock block outer stop false).report
              .unclosedBlock block.opening).outline =
            parser.outline ++
              [.close (some ⟨block.opening.start, stop⟩) false] :=
        outline_leaveBlock opened stop false
      refine ⟨?_, noBlocks⟩
      rw [leaveBlocks, sameOutline, left]
      simp [unclosed]

/-- What the end of the tokens adds for the command that is being read. -/
def settleEvents (parser : Parser) : List Event :=
  match parser.mode with
  | .idle | .skipping | .ended =>
      []
  | .header header =>
      [.visit (header.heading false)]
  | .opened header _ =>
      [.visit
        (header.heading (decide (parser.blocks.length < maxBlockDepth)))]

theorem outline_settle (parser : Parser) :
    parser.settle.outline = parser.outline ++ parser.settleEvents := by
  cases mode : parser.mode with
  | idle | skipping | ended =>
      simp [settle, settleEvents, mode, outline]
  | header header =>
      simp only [settle, settleEvents, mode]
      exact outline_push_header parser header
  | opened header opening =>
      simp only [settle, settleEvents, mode]
      exact outline_enterBlock parser header opening

theorem mem_settleEvents
    {parser : Parser}
    {event : Event}
    (member : event ∈ parser.settleEvents) :
    ∃ name,
      parser.mode.pending? = some name ∧
        event.line? = some name.line := by
  cases mode : parser.mode with
  | idle | skipping | ended =>
      simp [settleEvents, mode] at member
  | header current | opened current =>
      simp only [settleEvents, mode, List.mem_singleton] at member
      subst event
      exact ⟨current.name, rfl, rfl⟩

/-- The outline at the end of the tokens. -/
theorem outline_finish
    (parser : Parser)
    (stop : Position) :
    Script.outline (parser.finish stop).commands.reverse =
      parser.outline ++ parser.settleEvents ++
        unclosed stop parser.settle.blocks := by
  have opened : parser.settle.blocks = parser.settle.blocks :=
    rfl
  obtain ⟨sameOutline, noBlocks⟩ := leaveBlocks_eq opened stop
  rw [outline_settle] at sameOutline
  rw [← sameOutline]
  simp only [outline, finish, noBlocks, OpenBlock.outlineBefore,
    List.nil_append]

/-- Tokens behind a line make events behind it, whatever was read before. -/
theorem outline_of_behind
    {line : Nat}
    {parser : Parser}
    (pendingBehind :
      ∀ name,
        parser.mode.pending? = some name →
        line < name.line)
    {tokens : List Token}
    (behind : ∀ token ∈ tokens, line < token.line)
    (stop : Position) :
    ∃ late,
      Script.outline
          ((tokens.foldl step parser).finish stop).commands.reverse =
        parser.outline ++ late ∧
      ∀ event ∈ late, event.IsBehind line := by
  induction tokens generalizing parser with
  | nil =>
      refine ⟨parser.settleEvents ++ unclosed stop parser.settle.blocks, ?_, ?_⟩
      · rw [List.foldl_nil, outline_finish, List.append_assoc]
      · intro event member own isOwn
        rcases List.mem_append.mp member with isSettled | isUnclosed
        · obtain ⟨name, isPending, isVisit⟩ := mem_settleEvents isSettled
          rw [isOwn, Option.some.injEq] at isVisit
          exact isVisit ▸ pendingBehind name isPending
        · rw [line?_of_mem_unclosed isUnclosed] at isOwn
          cases isOwn
  | cons token rest inductionHypothesis =>
      have tokenBehind : line < token.line :=
        behind token (by simp)
      have stillBehind :
          ∀ name,
            (parser.step token).mode.pending? = some name →
            line < name.line := by
        intro name isPending
        rcases (pending?_step isPending).2 with stillPending | ⟨-, isToken⟩
        · exact pendingBehind name stillPending
        · exact isToken ▸ tokenBehind
      obtain ⟨late, sameOutline, lateBehind⟩ :=
        inductionHypothesis stillBehind
          fun later member => behind later (List.mem_cons_of_mem token member)
      refine ⟨parser.events token ++ late, ?_, ?_⟩
      · rw [List.foldl_cons, sameOutline, outline_step, List.append_assoc]
      · intro event member own isOwn
        rcases List.mem_append.mp member with isNew | isLate
        · rcases mem_events isNew with
            ⟨name, isPending, isVisit⟩ | ⟨-, isClose⟩
          · rw [isOwn, Option.some.injEq] at isVisit
            exact isVisit ▸ pendingBehind name isPending
          · rw [isOwn, Option.some.injEq] at isClose
            exact isClose ▸ tokenBehind
        · exact lateBehind event isLate own isOwn

/--
What holds of the outline after tokens up to a line: the events come line by
line, none is behind the line, and none is behind the command that is being
read.
-/
structure Ordered
    (line : Nat)
    (parser : Parser) : Prop where
  sorted :
    parser.outline.Pairwise Event.Precedes
  bounded :
    ∀ event ∈ parser.outline,
      ∃ own,
        event.line? = some own ∧
          own ≤ line ∧
          ∀ name,
            parser.mode.pending? = some name →
            own ≤ name.line
  pending :
    ∀ name,
      parser.mode.pending? = some name →
      name.line ≤ line

theorem ordered_initial : Ordered 0 initial where
  sorted := by
    simp [outline, initial, OpenBlock.outlineBefore]
  bounded := by
    simp [outline, initial, OpenBlock.outlineBefore]
  pending := by
    simp [initial, ParserMode.pending?]

namespace Ordered

/-- A token on the line or a later one keeps the order. -/
theorem step
    {line : Nat}
    {parser : Parser}
    (ordered : Ordered line parser)
    {token : Token}
    (notEarlier : line ≤ token.line) :
    Ordered token.line (parser.step token) := by
  have pendingBefore
      {name : Token}
      (pending : parser.mode.pending? = some name) :
      name.line ≤ token.line :=
    Nat.le_trans (ordered.pending name pending) notEarlier
  refine
    { sorted := ?_
      bounded := ?_
      pending := ?_ }
  · rw [outline_step, List.pairwise_append]
    refine ⟨ordered.sorted, events_sorted fun _ => pendingBefore, ?_⟩
    intro old isOld new isNew newLine isLine
    obtain ⟨own, isOwn, inTime, beforePending⟩ := ordered.bounded old isOld
    refine ⟨own, isOwn, ?_⟩
    rcases mem_events isNew with
      ⟨name, isPending, isVisit⟩ | ⟨-, isClose⟩
    · have atName : name.line = newLine := by
        simpa [isLine] using isVisit.symm
      have beforeName := beforePending name isPending
      omega
    · have atToken : token.line = newLine := by
        simpa [isLine] using isClose.symm
      omega
  · intro event member
    rw [outline_step, List.mem_append] at member
    rcases member with isOld | isNew
    · obtain ⟨own, isOwn, inTime, beforePending⟩ :=
        ordered.bounded event isOld
      refine ⟨own, isOwn, Nat.le_trans inTime notEarlier, ?_⟩
      intro name isPending
      rcases (pending?_step isPending).2 with stillPending | ⟨-, isToken⟩
      · exact beforePending name stillPending
      · subst name
        exact Nat.le_trans inTime notEarlier
    · have nonePending
          {name : Token}
          (isPending : (parser.step token).mode.pending? = some name) :
          False := by
        rw [(pending?_step isPending).1] at isNew
        cases isNew
      rcases mem_events isNew with
        ⟨name, isPending, isVisit⟩ | ⟨-, isClose⟩
      · exact ⟨name.line, isVisit, pendingBefore isPending,
          fun _ pending => (nonePending pending).elim⟩
      · exact ⟨token.line, isClose, Nat.le_refl _,
          fun _ pending => (nonePending pending).elim⟩
  · intro name isPending
    rcases (pending?_step isPending).2 with stillPending | ⟨-, isToken⟩
    · exact pendingBefore stillPending
    · exact Nat.le_of_eq (congrArg Token.line isToken)

/-- Tokens that come line by line keep the order. -/
theorem foldl
    {line : Nat}
    {parser : Parser}
    (ordered : Ordered line parser)
    {tokens : List Token}
    (notEarlier : ∀ token ∈ tokens, line ≤ token.line)
    (sorted : tokens.Pairwise fun first second => first.line ≤ second.line) :
    ∃ last, Ordered last (tokens.foldl Parser.step parser) := by
  induction tokens generalizing line parser with
  | nil =>
      exact ⟨line, ordered⟩
  | cons token rest inductionHypothesis =>
      rw [List.pairwise_cons] at sorted
      exact inductionHypothesis
        (ordered.step (notEarlier token (by simp))) sorted.1 sorted.2

/-- At the end of the tokens all events come line by line. -/
theorem finish
    {line : Nat}
    {parser : Parser}
    (ordered : Ordered line parser)
    (stop : Position) :
    (Script.outline (parser.finish stop).commands.reverse).Pairwise
      Event.Precedes := by
  have nothingBehind
      {first second : Event}
      (isUnclosed : second ∈ unclosed stop parser.settle.blocks) :
      first.Precedes second := by
    intro own isOwn
    rw [line?_of_mem_unclosed isUnclosed] at isOwn
    cases isOwn
  rw [outline_finish, List.pairwise_append, List.pairwise_append]
  refine ⟨⟨ordered.sorted, ?_, ?_⟩, ?_, ?_⟩
  · unfold settleEvents
    split <;> simp
  · intro old isOld new isNew newLine isLine
    obtain ⟨own, isOwn, -, beforePending⟩ := ordered.bounded old isOld
    obtain ⟨name, isPending, isVisit⟩ := mem_settleEvents isNew
    have atName : name.line = newLine := by
      simpa [isLine] using isVisit.symm
    exact ⟨own, isOwn, atName ▸ beforePending name isPending⟩
  · exact List.pairwise_of_forall_mem_list fun _ _ _ isUnclosed =>
      nothingBehind isUnclosed
  · intro first _ second isUnclosed
    exact nothingBehind isUnclosed

end Ordered

/-- Tokens that come line by line make an outline that does. -/
theorem parseTokens_sorted
    {tokens : List Token}
    (sorted : tokens.Pairwise fun first second => first.line ≤ second.line) :
    (Script.outline (parseTokens tokens).commands).Pairwise
      Event.Precedes := by
  obtain ⟨last, ordered⟩ :=
    ordered_initial.foldl (fun _ _ => Nat.zero_le _) sorted
  exact ordered.finish (lastPosition tokens)

end Parser

end ScriptCompletion.Script
