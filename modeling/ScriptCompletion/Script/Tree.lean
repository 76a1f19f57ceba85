import ScriptCompletion.Text.Position

namespace ScriptCompletion.Script

/-!
# Script trees

A script is a list of commands.  A command has a name, possibly with a module
in front of a colon, arguments, and possibly a block of further commands.
Trees that were not read from a text may lack positions.
-/

/-- How an argument is written. -/
inductive ArgumentKind where
  | literal
  | string
  | variable
  | helper
  | array
deriving Repr, DecidableEq

/-- An argument as it is written, quotes included. -/
structure Argument where
  kind : ArgumentKind
  raw : String
  range : Option Span
deriving Repr, DecidableEq

/-- The text between the delimiters of a string.  An unterminated string has
only the first one, which must be an ASCII character. -/
def unquote : List Char → List Char
  | [] =>
      []
  | quote :: inner =>
      if quote.toNat < 128 then
        if inner.getLast? = some quote then
          inner.dropLast
        else
          inner
      else
        []

/-- The text of an argument, without the delimiters of a string. -/
def Argument.value (argument : Argument) : String :=
  match argument.kind with
  | .string =>
      String.ofList (unquote argument.raw.toList)
  | .literal | .variable | .helper | .array =>
      argument.raw

/-- The commands between an opening parenthesis and the closing one. -/
structure Block (α : Type) where
  commands : List α
  range : Option Span
  /-- Whether the closing parenthesis was found. -/
  closed : Bool
deriving Repr, DecidableEq

/-- A command with its arguments and its block. -/
structure Command where
  /-- The module in front of the colon. -/
  qualifier : Option String
  name : String
  arguments : List Argument
  /-- The whole command with its block. -/
  range : Option Span
  /-- The name with its qualifier. -/
  nameRange : Option Span
  block : Option (Block Command)
deriving Repr, Inhabited

mutual

/-- Decide whether two commands are the same. -/
def Command.decEq
    (first second : Command) : Decidable (first = second) :=
  match first, second with
  | ⟨firstQualifier, firstName, firstArguments, firstRange, firstNameRange,
      none⟩,
    ⟨secondQualifier, secondName, secondArguments, secondRange,
      secondNameRange, none⟩ =>
      decidable_of_iff
        (firstQualifier = secondQualifier ∧ firstName = secondName ∧
          firstArguments = secondArguments ∧ firstRange = secondRange ∧
          firstNameRange = secondNameRange)
        (by simp)
  | ⟨firstQualifier, firstName, firstArguments, firstRange, firstNameRange,
      some ⟨firstCommands, firstBlockRange, firstClosed⟩⟩,
    ⟨secondQualifier, secondName, secondArguments, secondRange,
      secondNameRange,
      some ⟨secondCommands, secondBlockRange, secondClosed⟩⟩ =>
      have := Command.decEqAll firstCommands secondCommands
      decidable_of_iff
        (firstQualifier = secondQualifier ∧ firstName = secondName ∧
          firstArguments = secondArguments ∧ firstRange = secondRange ∧
          firstNameRange = secondNameRange ∧
          firstCommands = secondCommands ∧
          firstBlockRange = secondBlockRange ∧ firstClosed = secondClosed)
        (by simp)
  | ⟨_, _, _, _, _, none⟩, ⟨_, _, _, _, _, some _⟩ =>
      isFalse (by simp)
  | ⟨_, _, _, _, _, some _⟩, ⟨_, _, _, _, _, none⟩ =>
      isFalse (by simp)

/-- Decide whether two lists of commands are the same. -/
def Command.decEqAll
    (first second : List Command) : Decidable (first = second) :=
  match first, second with
  | [], [] =>
      isTrue rfl
  | firstCommand :: firstRest, secondCommand :: secondRest =>
      have := Command.decEq firstCommand secondCommand
      have := Command.decEqAll firstRest secondRest
      decidable_of_iff
        (firstCommand = secondCommand ∧ firstRest = secondRest)
        (by simp)
  | [], _ :: _ =>
      isFalse (by simp)
  | _ :: _, [] =>
      isFalse (by simp)

end

instance : DecidableEq Command :=
  Command.decEq

/-- The name of the module whose commands need no qualifier. -/
def standardName : String :=
  "std"

namespace Command

/-- The name as it is written, with the qualifier and a colon if there is one. -/
def qualifiedName (command : Command) : String :=
  match command.qualifier with
  | none =>
      command.name
  | some qualifier =>
      qualifier ++ ":" ++ command.name

/-- The number of characters of the name as it is written. -/
def qualifiedLength (command : Command) : Nat :=
  match command.qualifier with
  | none =>
      command.name.length
  | some qualifier =>
      qualifier.length + 1 + command.name.length

/-- The line on which the command starts. -/
def startLine (command : Command) : Option Nat :=
  command.range.map fun range => range.start.line

/-- Whether the command is spelled as the named command of the standard
module, with or without its qualifier. -/
def isStandard
    (command : Command)
    (name : String) : Bool :=
  command.name == name &&
    match command.qualifier with
    | none =>
        true
    | some qualifier =>
        qualifier == standardName

mutual

/-- The command and those inside its block, latest first, in front of the
commands gathered before. -/
def gather
    (gathered : List Command)
    (command : Command) : List Command :=
  match command with
  | ⟨qualifier, name, arguments, range, nameRange, none⟩ =>
      ⟨qualifier, name, arguments, range, nameRange, none⟩ :: gathered
  | ⟨qualifier, name, arguments, range, nameRange,
      some ⟨commands, blockRange, closed⟩⟩ =>
      gatherAll
        (⟨qualifier, name, arguments, range, nameRange,
          some ⟨commands, blockRange, closed⟩⟩ :: gathered)
        commands

/-- The commands of a list and those inside their blocks, latest first. -/
def gatherAll
    (gathered : List Command)
    (commands : List Command) : List Command :=
  match commands with
  | [] =>
      gathered
  | command :: rest =>
      gatherAll (command.gather gathered) rest

end

end Command

/-- All commands in source order, each before those inside its block. -/
def flatten (commands : List Command) : List Command :=
  (Command.gatherAll [] commands).reverse

/-- The last command that starts on the line. -/
def commandAtLine
    (commands : List Command)
    (line : Nat) : Option Command :=
  ((flatten commands).filter fun command =>
    command.startLine == some line).getLast?

end ScriptCompletion.Script
