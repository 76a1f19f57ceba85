import ScriptCompletion.Proofs.EarlyLines
import ScriptCompletion.Proofs.TokenOrder

namespace ScriptCompletion.Script

/-!
# Where the events of an outline stand

Every event of an outline comes from one token: a command from its name, and the
end of a block from its closing parenthesis.  Later events come from later
tokens.  So the events of a script are ordered by the positions at which these
tokens end, and no two commands of a script are the same.
-/

namespace Event

/-- Where the token of the event ends.  A block that is never closed has no
token that ends it. -/
def stop? : Event → Option Position
  | .visit command =>
      command.nameRange.map Span.stop
  | .close range true =>
      range.map Span.stop
  | .close _ false =>
      none

@[simp]
theorem stop?_heading (event : Event) :
    event.heading.stop? = event.stop? := by
  cases event <;> rfl

/-- The token of the first event ends before that of the second one does. -/
def EndsBefore
    (first second : Event) : Prop :=
  ∀ later,
    second.stop? = some later →
    ∃ earlier, first.stop? = some earlier ∧ earlier < later

end Event

/-- Where a token ends that can be the token of an event. -/
def Token.stops (token : Token) : List (Option Position) :=
  if token.kind.endsLine then
    []
  else
    [some token.stop]

namespace Parser

/-- Where the events so far end, with the name of the command that is being
read. -/
def stops (parser : Parser) : List (Option Position) :=
  parser.outline.map Event.stop? ++
    parser.mode.pending?.toList.map fun name => some name.stop

theorem stops_idleEvents
    (parser : Parser)
    (token : Token) :
    ((parser.idleEvents token).map Event.stop?).Sublist token.stops := by
  unfold idleEvents
  split
  · rename_i block outer isClosing opened
    simp [Token.stops, isClosing, TokenKind.endsLine, Event.stop?]
  · exact List.nil_sublist _

theorem stops_headerEvents
    (parser : Parser)
    (header : Header)
    (token : Token) :
    ((parser.headerEvents header token).map Event.stop?).Sublist
      (some header.name.stop :: token.stops) := by
  have finished :
      ((.visit (header.heading false) :: parser.idleEvents token).map
          Event.stop?).Sublist
        (some header.name.stop :: token.stops) :=
    (stops_idleEvents parser token).cons_cons _
  unfold headerEvents
  split
  · exact finished
  · exact finished
  · exact finished
  all_goals exact List.nil_sublist _

/-- What a token adds comes from the command that was being read and from the
token. -/
theorem stops_events
    (parser : Parser)
    (token : Token) :
    ((parser.events token).map Event.stop?).Sublist
      ((parser.mode.pending?.toList.map fun name => some name.stop) ++
        token.stops) := by
  unfold events
  cases mode : parser.mode with
  | idle =>
      exact stops_idleEvents parser token
  | header header =>
      exact stops_headerEvents parser header token
  | opened header opening =>
      simp only
      split
      · exact (List.nil_sublist token.stops).cons_cons _
      · exact stops_headerEvents parser header token
  | skipping | ended =>
      exact List.nil_sublist _

/-- Reading a token adds nothing but where it ends. -/
theorem stops_step
    (parser : Parser)
    (token : Token) :
    (parser.step token).stops.Sublist (parser.stops ++ token.stops) := by
  unfold stops
  rw [outline_step, List.map_append, List.append_assoc, List.append_assoc]
  refine List.Sublist.append_left ?_ _
  cases pending : (parser.step token).mode.pending? with
  | none =>
      simpa using stops_events parser token
  | some name =>
      obtain ⟨nothing, stillPending | ⟨isWord, isToken⟩⟩ := pending?_step pending
      · simp [nothing, stillPending]
      · subst name
        simp [nothing, Token.stops, isWord, TokenKind.endsLine]

theorem stops_foldl
    (parser : Parser)
    (tokens : List Token) :
    (tokens.foldl step parser).stops.Sublist
      (parser.stops ++ tokens.flatMap Token.stops) := by
  induction tokens generalizing parser with
  | nil =>
      simp
  | cons token rest inductionHypothesis =>
      rw [List.foldl_cons, List.flatMap_cons, ← List.append_assoc]
      exact (inductionHypothesis (parser.step token)).trans
        ((stops_step parser token).append_right _)

theorem stops_settleEvents (parser : Parser) :
    parser.settleEvents.map Event.stop? =
      parser.mode.pending?.toList.map fun name => some name.stop := by
  cases mode : parser.mode <;>
    simp [settleEvents, mode, ParserMode.pending?, Event.stop?, Header.heading,
      Token.span]

/-- The outline of tokens ends where some of the tokens do, one event after the
other, up to the blocks that are never closed. -/
theorem outline_parseTokens_stops (tokens : List Token) :
    ∃ located late,
      Script.outline (parseTokens tokens).commands = located ++ late ∧
        (located.map Event.stop?).Sublist (tokens.flatMap Token.stops) ∧
        ∀ event ∈ late, ∃ range, event = .close range false := by
  have whole := outline_finish (tokens.foldl step initial) (lastPosition tokens)
  refine ⟨_, _, whole, ?_, ?_⟩
  · rw [List.map_append, stops_settleEvents]
    simpa [stops, initial, outline, OpenBlock.outlineBefore,
      ParserMode.pending?] using stops_foldl initial tokens
  · intro event member
    obtain ⟨block, -, rfl⟩ := List.mem_map.mp member
    exact ⟨_, rfl⟩

end Parser

/-- The tokens of a text end one after the other. -/
theorem stops_lex_increasing (text : String) :
    ((lex text).tokens.flatMap Token.stops).Pairwise
      fun first second => ∃ earlier later,
        first = some earlier ∧ second = some later ∧ earlier < later := by
  have sameStops (tokens : List Token) :
      tokens.flatMap Token.stops =
        ((tokens.filter fun token => !token.kind.endsLine).map
          Token.stop).map some := by
    induction tokens with
    | nil =>
        rfl
    | cons token rest inductionHypothesis =>
        cases ends : token.kind.endsLine <;>
          simp [Token.stops, ends, inductionHypothesis]
  rw [sameStops, List.pairwise_map]
  exact (lex_stops_increasing text).imp fun {first second} before =>
    ⟨first, second, rfl, rfl, before⟩

/-- The outline of a script ends where some of its tokens do. -/
theorem outline_parse_stops (text : String) :
    ∃ located late,
      outline (parse text).commands = located ++ late ∧
        (located.map Event.stop?).Sublist
          ((lex text).tokens.flatMap Token.stops) ∧
        ∀ event ∈ late, ∃ range, event = .close range false := by
  unfold parse
  split
  · exact ⟨[], [], by simp, List.nil_sublist _, by simp⟩
  · exact Parser.outline_parseTokens_stops (lex text).tokens

/-- The events of a script are ordered by where their tokens end. -/
theorem parse_endsBefore (text : String) :
    (outline (parse text).commands).Pairwise Event.EndsBefore := by
  obtain ⟨located, late, shape, fromTokens, unclosed⟩ :=
    outline_parse_stops text
  have nothingBehind
      {first second : Event}
      (isLate : second ∈ late) :
      first.EndsBefore second := by
    obtain ⟨range, rfl⟩ := unclosed second isLate
    intro later isLater
    cases isLater
  rw [shape, List.pairwise_append]
  refine ⟨?_, ?_, ?_⟩
  · have increasing := (stops_lex_increasing text).sublist fromTokens
    rw [List.pairwise_map] at increasing
    refine increasing.imp ?_
    rintro first second ⟨earlier, later, isEarlier, isLater, before⟩ own isOwn
    rw [isLater, Option.some.injEq] at isOwn
    exact ⟨earlier, isEarlier, isOwn ▸ before⟩
  · exact List.pairwise_of_forall_mem_list fun _ _ _ isLate =>
      nothingBehind isLate
  · intro first _ second isLate
    exact nothingBehind isLate

/-- Every command of a script has a name with a place. -/
theorem stop?_of_mem_flatten_parse
    {text : String}
    {command : Command}
    (member : command ∈ flatten (parse text).commands) :
    ∃ place, (Event.visit command).stop? = some place := by
  obtain ⟨located, late, shape, fromTokens, unclosed⟩ :=
    outline_parse_stops text
  have inOutline : (Event.visit command).heading ∈ located ++ late := by
    rw [← shape]
    exact List.mem_map_of_mem (mem_flatten.mp member)
  rcases List.mem_append.mp inOutline with isLocated | isLate
  · have isStop := fromTokens.subset (List.mem_map_of_mem isLocated)
    obtain ⟨token, -, atToken⟩ := List.mem_flatMap.mp isStop
    unfold Token.stops at atToken
    split at atToken
    · cases atToken
    · rw [List.mem_singleton, Event.stop?_heading] at atToken
      exact ⟨_, atToken⟩
  · obtain ⟨range, wrong⟩ := unclosed _ isLate
    cases wrong

/-- No two commands of a script are the same. -/
theorem nodup_flatten_parse (text : String) :
    (flatten (parse text).commands).Nodup := by
  have ordered := parse_endsBefore text
  rw [outline, List.pairwise_map] at ordered
  rw [flatten_eq_trace, List.Nodup, List.pairwise_filterMap]
  refine ordered.imp_of_mem ?_
  intro first second isFirst isSecond before command isCommand other isOther same
  subst other
  cases first with
  | close range closed =>
      cases isCommand
  | visit own =>
      cases isCommand
      cases second with
      | close range closed =>
          cases isOther
      | visit other =>
          cases isOther
          obtain ⟨place, isPlace⟩ :=
            stop?_of_mem_flatten_parse (mem_flatten.mpr isFirst)
          obtain ⟨earlier, isEarlier, less⟩ :=
            before place (by rw [Event.stop?_heading, isPlace])
          rw [Event.stop?_heading, isPlace, Option.some.injEq] at isEarlier
          subst earlier
          rw [Position.lt_iff] at less
          omega

end ScriptCompletion.Script
