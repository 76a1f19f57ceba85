import ScriptCompletion.Resolution
import ScriptCompletion.Suggestion.Context

namespace ScriptCompletion.Suggestion

/-!
# Suggested items

The items are made from the scopes at the cursor: where a command name is being
written variables and commands, where an argument is being written its
candidates, helpers and variables, and elsewhere helpers and variables.
-/

/-- What an item names. -/
inductive ItemKind where
  | command
  | helper
  | variable
  | argumentValue
deriving Repr, DecidableEq

/-- A text that can be put in place of the word at the cursor. -/
structure Item where
  label : String
  insertText : String
  /-- The stretch of text that is replaced. -/
  range : Span
  kind : ItemKind
  /-- The name of the module that the item comes from. -/
  detail : Option String
deriving Repr, DecidableEq

namespace Item

/-- An item that inserts its label. -/
def ofLabel
    (label : String)
    (kind : ItemKind)
    (range : Span)
    (detail : Option String) : Item where
  label := label
  insertText := label
  range := range
  kind := kind
  detail := detail

end Item

/-- The modules in scope with their keys, in the order of their bindings. -/
def visibleModules (scopes : Scopes) : List (String × Module) :=
  (scopes.visible .module).filterMap fun binding =>
    (Binding.module? binding).map fun module => (binding.name, module)

/-- How close a module is to the cursor. -/
inductive ModuleRank where
  /-- The module of the enclosing block. -/
  | enclosing
  | standard
  | other
deriving Repr, DecidableEq

/-- How close the module under a key is to the cursor. -/
def moduleRank
    (scopes : Scopes)
    (key : String) : ModuleRank :=
  if scopes.context? = some key then
    .enclosing
  else if key = Script.standardName then
    .standard
  else
    .other

/-- The modules in scope of one rank, in the order of their bindings. -/
def modulesOfRank
    (scopes : Scopes)
    (rank : ModuleRank) : List (String × Module) :=
  (visibleModules scopes).filter fun (key, _) =>
    moduleRank scopes key == rank

/-- The modules in scope, closer ones first. -/
def rankedModules (scopes : Scopes) : List (String × Module) :=
  modulesOfRank scopes .enclosing ++
    modulesOfRank scopes .standard ++
    modulesOfRank scopes .other

/-- How a command of the module under a key is written: behind its alias,
unless the module comes first anyway. -/
def commandLabel
    (scopes : Scopes)
    (key : String)
    (name : String) : String :=
  if moduleRank scopes key = .other && (scopes.aliasTarget? key).isSome then
    key ++ ":" ++ name
  else
    name

/-- The commands of all modules in scope, the first one of every label. -/
def commandItems
    (scopes : Scopes)
    (range : Span) : List Item :=
  Keyed.distinctBy Item.label
    ((rankedModules scopes).flatMap fun (key, module) =>
      module.commands.map fun command =>
        .ofLabel (commandLabel scopes key command.name) .command range
          (some module.name))

/-- The candidates for an argument of a command, each once. -/
def argumentItems
    (scopes : Scopes)
    (command : Script.Command)
    (index : Nat)
    (range : Span) : List Item :=
  match scopes.resolve command.qualifier command.name with
  | .error _ =>
      []
  | .ok resolved =>
      match resolved.command.candidates with
      | none =>
          []
      | some candidates =>
          Keyed.distinctBy Item.label
            ((candidates
                { index := index
                  arguments := command.arguments.take index
                  scopes := scopes.view }).map
              fun value =>
                .ofLabel value .argumentValue range
                  (some resolved.module.name))

/-- The helpers of all modules in scope, the first one of every name. -/
def helperItems
    (scopes : Scopes)
    (range : Span) : List Item :=
  Keyed.distinctBy Item.label
    ((visibleModules scopes).flatMap fun (_, module) =>
      module.helpers.map fun helper =>
        .ofLabel ("@" ++ helper.name) .helper range (some module.name))

/-- The variables in scope. -/
def variableItems
    (scopes : Scopes)
    (range : Span) : List Item :=
  (scopes.visibleNames .variable).map fun name =>
    .ofLabel name .variable range none

/-- The items that fit what is being written. -/
def assemble
    (context : Context)
    (scopes : Scopes)
    (range : Span) : List Item :=
  match context with
  | .commandName =>
      variableItems scopes range ++ commandItems scopes range
  | .argument command index =>
      argumentItems scopes command index range ++
        helperItems scopes range ++
        variableItems scopes range
  | .other =>
      helperItems scopes range ++ variableItems scopes range

end ScriptCompletion.Suggestion
