import Mathlib.Data.List.Nodup
import ScriptCompletion.Proofs.FaithfulTrees
import ScriptCompletion.Proofs.InsertionOrder
import ScriptCompletion.Suggestion.Item

namespace ScriptCompletion

/-!
# The arguments that were typed before the cursor

The index of an argument counts the arguments that end left of the cursor, and the
arguments in front of it are then taken by position, as many as were counted.  These
are the same arguments for a command that was read from a text: its arguments stand on
the line on which it starts, and each of them ends further right than the one before
it.  For the same reason a step of the cursor to the right passes the end of one
argument at most.
-/

namespace Script

/-- Whether the argument ends in front of the cursor. -/
def Argument.isTypedBefore
    (argument : Argument)
    (cursor : Position) : Bool :=
  argument.range.any fun range => range.stop < cursor

/-- The arguments of a command are tokens of the line on which it starts, and each of
them ends further right than those before it. -/
theorem arguments_of_mem_parse
    {text : String}
    {command : Command}
    (member : command ∈ flatten (parse text).commands)
    {line : Nat}
    (starts : command.startLine = some line) :
    ∃ tokens : List Token,
      command.arguments = tokens.map Argument.ofToken ∧
        (∀ token ∈ tokens, token.line = line) ∧
        (tokens.map Token.stopColumn).Pairwise (· < ·) := by
  obtain ⟨header, block, rfl, ⟨arguments, shape, onLine⟩, -⟩ :=
    isMade_of_mem_parse member
  have lineShape :
      header.line = (header.name :: arguments.reverse).map Token.piece := by
    simp [Header.line, shape, Function.comp_def]
  obtain ⟨written, ordered⟩ := tokens_of_line member lineShape
  have startsAtName : header.name.line = line := by
    simpa [Command.startLine, Header.toCommand, Token.start] using starts
  have sameLine :
      ∀ token ∈ arguments.reverse, token.line = line := by
    intro token isArgument
    exact (onLine token (List.mem_reverse.mp isArgument)).trans startsAtName
  refine ⟨arguments.reverse, by simp [Header.toCommand, shape], sameLine, ?_⟩
  rw [List.pairwise_map]
  refine (List.pairwise_cons.mp ordered).2.imp_of_mem ?_
  intro first second isFirst isSecond before
  -- The second token takes room, so it ends behind the first one and not with it.
  have filled := (written second (List.mem_cons_of_mem _ isSecond)).2
  have later : first.stop < second.stop := by
    rw [Position.lt_iff] at filled ⊢
    rw [Position.le_iff] at before
    omega
  rcases Position.lt_iff.mp later with earlierLine | ⟨-, further⟩
  · have firstLine : first.stop.line = line := sameLine first isFirst
    have secondLine : second.stop.line = line := sameLine second isSecond
    omega
  · exact further

end Script

namespace Suggestion

/-- Where what holds of an item also holds of those before it, the items of which it
holds are the first ones. -/
theorem take_countP_eq_filter
    {Entry : Type}
    {holds : Entry → Bool}
    {entries : List Entry}
    (closed :
      entries.Pairwise fun first second =>
        holds second = true → holds first = true) :
    entries.take (entries.countP holds) = entries.filter holds := by
  induction entries with
  | nil =>
      rfl
  | cons entry rest inductionHypothesis =>
      rw [List.pairwise_cons] at closed
      cases isHeld : holds entry with
      | true =>
          rw [List.countP_cons_of_pos isHeld, List.filter_cons_of_pos isHeld,
            List.take_succ_cons, inductionHypothesis closed.2]
      | false =>
          have noneHeld : ∀ later ∈ entry :: rest, holds later ≠ true := by
            rw [List.forall_mem_cons]
            refine ⟨Bool.eq_false_iff.mp isHeld, ?_⟩
            intro later isLater laterHeld
            exact Bool.eq_false_iff.mp isHeld (closed.1 later isLater laterHeld)
          rw [List.countP_eq_zero.mpr noneHeld, List.take_zero,
            List.filter_eq_nil_iff.mpr noneHeld]

/-- Of different columns at most one comes in where the bound goes one further. -/
theorem countP_lt_succ_le
    {columns : List Nat}
    (distinct : columns.Nodup)
    (column : Nat) :
    columns.countP (· < column + 1) ≤ columns.countP (· < column) + 1 := by
  have comesIn
      (columns : List Nat) :
      columns.countP (· < column + 1) =
        columns.countP (· < column) + columns.count column := by
    induction columns with
    | nil =>
        rfl
    | cons first rest inductionHypothesis =>
        rw [List.countP_cons, List.countP_cons, List.count_cons,
          inductionHypothesis]
        simp only [decide_eq_true_eq, beq_iff_eq]
        split <;> split <;> split <;> omega
  have once : columns.count column ≤ 1 :=
    List.nodup_iff_count_le_one.mp distinct column
  rw [comesIn]
  omega

/-- The command at the cursor starts on the line of the cursor, and its arguments are
counted there. -/
theorem eq_of_classify_eq_argument
    {commands : List Script.Command}
    {line : String}
    {cursor : Position}
    {command : Script.Command}
    {index : Nat}
    (classified : classify commands line cursor = .argument command index) :
    command ∈ Script.flatten commands ∧
      command.startLine = some cursor.line ∧
      index = argumentIndex command cursor := by
  unfold classify at classified
  split at classified
  · cases classified
  · cases found : Script.commandAtLine commands cursor.line with
    | none =>
        simp [found] at classified
    | some own =>
        simp only [found] at classified
        split at classified
        · cases classified
        · cases classified
          obtain ⟨member, starts⟩ :=
            List.mem_filter.mp (List.mem_of_getLast? found)
          exact ⟨member, by simpa using starts, rfl⟩

section OnOneLine

variable {command : Script.Command} {tokens : List Script.Token} {line : Nat}

/-- An argument on the line of the cursor ends in front of it if its column does. -/
theorem endsBefore_ofToken
    {token : Script.Token}
    (onLine : token.line = line)
    (column : Nat) :
    endsBefore (.ofToken token) ⟨line, column⟩ =
      decide (token.stopColumn < column) := by
  simp [endsBefore, Script.Argument.ofToken, Script.Token.span,
    Script.Token.stop, onLine]

theorem isTypedBefore_ofToken
    {token : Script.Token}
    (onLine : token.line = line)
    (column : Nat) :
    (Script.Argument.ofToken token).isTypedBefore ⟨line, column⟩ =
      decide (token.stopColumn < column) := by
  simp [Script.Argument.isTypedBefore, Script.Argument.ofToken,
    Script.Token.span, Script.Token.stop, Position.lt_iff, onLine]

/-- The index counts the columns at which arguments end. -/
theorem argumentIndex_eq
    (shape : command.arguments = tokens.map Script.Argument.ofToken)
    (onLine : ∀ token ∈ tokens, token.line = line)
    (column : Nat) :
    argumentIndex command ⟨line, column⟩ =
      (tokens.map Script.Token.stopColumn).countP (· < column) := by
  rw [argumentIndex, shape, List.countP_map, List.countP_map]
  apply List.countP_congr
  intro token member
  rw [Function.comp_apply, endsBefore_ofToken (onLine token member),
    Function.comp_apply]

/-- The first arguments, as many as the index says, are those in front of the
cursor. -/
theorem take_argumentIndex
    (shape : command.arguments = tokens.map Script.Argument.ofToken)
    (onLine : ∀ token ∈ tokens, token.line = line)
    (increasing : (tokens.map Script.Token.stopColumn).Pairwise (· < ·))
    (column : Nat) :
    command.arguments.take (argumentIndex command ⟨line, column⟩) =
      command.arguments.filter fun argument =>
        argument.isTypedBefore ⟨line, column⟩ := by
  have sameTest :
      ∀ argument ∈ command.arguments,
        endsBefore argument ⟨line, column⟩ =
          argument.isTypedBefore ⟨line, column⟩ := by
    rw [shape, List.forall_mem_map]
    intro token member
    rw [endsBefore_ofToken (onLine token member),
      isTypedBefore_ofToken (onLine token member)]
  have closed :
      command.arguments.Pairwise fun first second =>
        endsBefore second ⟨line, column⟩ = true →
        endsBefore first ⟨line, column⟩ = true := by
    rw [shape, List.pairwise_map]
    rw [List.pairwise_map] at increasing
    refine increasing.imp_of_mem ?_
    intro first second isFirst isSecond further secondEnds
    rw [endsBefore_ofToken (onLine second isSecond),
      decide_eq_true_eq] at secondEnds
    rw [endsBefore_ofToken (onLine first isFirst), decide_eq_true_eq]
    exact Nat.lt_trans further secondEnds
  rw [argumentIndex, take_countP_eq_filter closed]
  exact List.filter_congr sameTest

end OnOneLine

/--
The argument index selects the arguments that were typed before the cursor.  Take a
command of any text, and any column of the line on which it starts.  The index is no
larger than the number of arguments, and the arguments in front of it are exactly those
that end before the cursor.  It never decreases when the cursor goes right, and grows by
one at most in one column.  Where the argument of a command is being written, it is one
of a command that starts on the line of the cursor, with this index, and its candidates
are made from the arguments that end before the cursor and from what is in scope, with
the names of the variables that can be seen.
-/
theorem argument_index_selects_typed (text : String) :
    let commands := (Script.parse text).commands
    (∀ command ∈ Script.flatten commands,
      ∀ line,
        command.startLine = some line →
        ∀ column,
          let index := argumentIndex command ⟨line, column⟩
          index ≤ command.arguments.length ∧
            command.arguments.take index =
              command.arguments.filter (fun argument =>
                argument.isTypedBefore ⟨line, column⟩) ∧
            (∀ further,
              column ≤ further →
              index ≤ argumentIndex command ⟨line, further⟩) ∧
            argumentIndex command ⟨line, column + 1⟩ ≤ index + 1) ∧
      ∀ written cursor command index,
        classify commands written cursor = .argument command index →
        command ∈ Script.flatten commands ∧
          command.startLine = some cursor.line ∧
          index = argumentIndex command cursor ∧
          ∀ scopes range resolved candidates,
            scopes.resolve command.qualifier command.name = .ok resolved →
            resolved.command.candidates = some candidates →
            let query : CandidateQuery :=
              { index := index
                arguments :=
                  command.arguments.filter fun argument =>
                    argument.isTypedBefore cursor
                scopes := scopes.view }
            query.variableNames = scopes.visibleNames .variable ∧
              argumentItems scopes command index range =
                Keyed.distinctBy Item.label
                  ((candidates query).map fun value =>
                    .ofLabel value .argumentValue range
                      (some resolved.module.name)) := by
  intro commands
  constructor
  · intro command member line starts column index
    obtain ⟨tokens, shape, onLine, increasing⟩ :=
      Script.arguments_of_mem_parse member starts
    have counted := argumentIndex_eq shape onLine
    refine ⟨List.countP_le_length,
      take_argumentIndex shape onLine increasing column, ?_, ?_⟩
    · intro further notBefore
      have isIndex : index = _ := counted column
      rw [isIndex, counted further]
      apply List.countP_mono_left
      intro stop _ before
      rw [decide_eq_true_eq] at before ⊢
      exact Nat.lt_of_lt_of_le before notBefore
    · have isIndex : index = _ := counted column
      rw [isIndex, counted (column + 1)]
      exact countP_lt_succ_le (increasing.imp Nat.ne_of_lt) column
  · intro written cursor command index classified
    obtain ⟨member, starts, isIndex⟩ := eq_of_classify_eq_argument classified
    refine ⟨member, starts, isIndex, ?_⟩
    intro scopes range resolved candidates resolves hasCandidates
    obtain ⟨tokens, shape, onLine, increasing⟩ :=
      Script.arguments_of_mem_parse member starts
    have typed := take_argumentIndex shape onLine increasing cursor.column
    rw [← isIndex] at typed
    refine ⟨scopes.variableNames_view, ?_⟩
    simp only [argumentItems, resolves, hasCandidates, typed]

/--
Arguments without a space between them, in a block that ends on the same line: inside the
third one, two arguments were typed before the cursor, and these are what the candidates
are made from.
-/
theorem argument_index_selects_typed_adjacent :
    let text := "connect x (\n  grant 'a'\"b\"[c]@f(1) $y )\n"
    let commands := (Script.parse text).commands
    let command : Script.Command :=
      { qualifier := none
        name := "grant"
        arguments :=
          [⟨.string, "'a'", some (.onLine 1 8 11)⟩,
            ⟨.string, "\"b\"", some (.onLine 1 11 14)⟩,
            ⟨.array, "[c]", some (.onLine 1 14 17)⟩,
            ⟨.helper, "@f(1)", some (.onLine 1 17 22)⟩,
            ⟨.variable, "$y", some (.onLine 1 23 25)⟩]
        range := some (.onLine 1 2 25)
        nameRange := some (.onLine 1 2 7)
        block := none }
    let cursor : Position := ⟨1, 15⟩
    let echoing : CommandEntry :=
      .suggesting "grant" "" fun query => query.arguments.map Script.Argument.raw
    let module := (Module.named "m").withCommand echoing
    let scopes := Scopes.root.bind (.ofModule "m" module)
    let range : Span := .onLine 1 15 15
    command ∈ Script.flatten commands ∧
      command.startLine = some 1 ∧
      classify commands (Text.lineAt text 1) cursor = .argument command 2 ∧
      scopes.resolve command.qualifier command.name =
        .ok ⟨"m", module, echoing⟩ ∧
      (argumentIndex command cursor ≤ command.arguments.length ∧
        argumentIndex command cursor ≤ argumentIndex command ⟨1, 99⟩ ∧
        argumentIndex command ⟨1, 16⟩ ≤ argumentIndex command cursor + 1) ∧
      (argumentItems scopes command 2 range).map Item.label =
        ["'a'", "\"b\""] := by
  intro text commands command cursor echoing module scopes range
  have found : Script.commandAtLine commands cursor.line = some command := by
    decide +kernel
  have notBlank :
      (commands.isEmpty || Text.isBlank (Text.lineAt text 1)) = false := by
    decide +kernel
  have behindName : isTypingName command cursor = false := by
    decide +kernel
  have counted : argumentIndex command cursor = 2 := by
    decide +kernel
  have classified :
      classify commands (Text.lineAt text 1) cursor = .argument command 2 := by
    simp [classify, notBlank, found, behindName, counted]
  have resolves :
      scopes.resolve command.qualifier command.name =
        .ok ⟨"m", module, echoing⟩ :=
    rfl
  obtain ⟨selects, atCursor⟩ := argument_index_selects_typed text
  obtain ⟨member, starts, -, offered⟩ := atCursor _ _ _ _ classified
  obtain ⟨inBounds, -, increases, slowly⟩ := selects command member 1 starts 15
  refine ⟨member, starts, classified, resolves,
    ⟨inBounds, increases 99 (by decide), slowly⟩, ?_⟩
  rw [(offered scopes range _ _ resolves rfl).2]
  decide +kernel

end Suggestion

end ScriptCompletion
