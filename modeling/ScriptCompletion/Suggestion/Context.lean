import ScriptCompletion.Script.Tree
import ScriptCompletion.Text.Whitespace

namespace ScriptCompletion.Suggestion

/-!
# What is being written at the cursor

A command name is being written on a blank line and inside the name of the
command that the line starts; behind the name it is an argument.
-/

/-- What is being written. -/
inductive Context where
  | commandName
  /-- The argument of a command with an index. -/
  | argument (command : Script.Command) (index : Nat)
  | other
deriving Repr

/-- Whether the column lies between the start of the name and the length of the
name.  The length is compared with the column as it is, so on an indented line
the end of the name no longer counts as part of it. -/
def isTypingName
    (command : Script.Command)
    (cursor : Position) : Bool :=
  match command.nameRange with
  | none =>
      false
  | some range =>
      range.start.column ≤ cursor.column &&
        cursor.column ≤ command.qualifiedLength

/-- Whether an argument ends on the line of the cursor and left of it. -/
def endsBefore
    (argument : Script.Argument)
    (cursor : Position) : Bool :=
  match argument.range with
  | none =>
      false
  | some range =>
      range.stop.line == cursor.line && range.stop.column < cursor.column

/-- The number of arguments left of the cursor. -/
def argumentIndex
    (command : Script.Command)
    (cursor : Position) : Nat :=
  command.arguments.countP fun argument => endsBefore argument cursor

/-- What is being written at the cursor, given the text of its line. -/
def classify
    (commands : List Script.Command)
    (line : String)
    (cursor : Position) : Context :=
  if commands.isEmpty || Text.isBlank line then
    .commandName
  else
    match Script.commandAtLine commands cursor.line with
    | none =>
        .other
    | some command =>
        if isTypingName command cursor then
          .commandName
        else
          .argument command (argumentIndex command cursor)

end ScriptCompletion.Suggestion
