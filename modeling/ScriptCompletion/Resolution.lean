import ScriptCompletion.Scopes

namespace ScriptCompletion

/-!
# Resolution of command names

A qualified name belongs to the module under its qualifier.  A plain name
belongs to the module of the enclosing block if that one has it, else to the
standard module, else to the only loaded module without alias that has it.
-/

/-- A command together with the module it was found in. -/
structure ResolvedCommand where
  /-- The key under which the module is bound. -/
  key : String
  module : Module
  command : CommandEntry

namespace ResolvedCommand

/-- The command of a name in the module that is bound. -/
def ofBinding?
    (binding : Binding)
    (name : String) : Option ResolvedCommand := do
  let module ← Binding.module? binding
  let command ← module.command? name
  return ⟨binding.name, module, command⟩

end ResolvedCommand

namespace Scopes

/-- The command of a name in the module under a key. -/
def commandUnder?
    (scopes : Scopes)
    (key : String)
    (name : String) : Option ResolvedCommand := do
  let binding ← scopes.lookup .module key
  ResolvedCommand.ofBinding? binding name

/-- Resolve a name behind a qualifier. -/
def resolveQualified
    (scopes : Scopes)
    (qualifier : String)
    (name : String) : Except ResolutionError ResolvedCommand :=
  match scopes.lookup .module qualifier with
  | none =>
      if (scopes.aliasTarget? qualifier).isSome then
        .error (.unknownAlias qualifier)
      else
        .error (.unknownModule qualifier)
  | some binding =>
      match ResolvedCommand.ofBinding? binding name with
      | none =>
          .error (.unknownCommand (qualifier ++ ":" ++ name))
      | some resolved =>
          .ok resolved

/-- The commands of a name in the loaded modules that have no alias. -/
def unaliasedCommands
    (scopes : Scopes)
    (name : String) : List ResolvedCommand :=
  ((scopes.visible .module).filter fun binding =>
    binding.name != Script.standardName &&
      (scopes.aliasTarget? binding.name).isNone).filterMap fun binding =>
        ResolvedCommand.ofBinding? binding name

/-- Resolve a name without qualifier. -/
def resolvePlain
    (scopes : Scopes)
    (name : String) : Except ResolutionError ResolvedCommand :=
  let preferred :=
    (scopes.context?.bind fun key => scopes.commandUnder? key name).or
      (scopes.commandUnder? Script.standardName name)
  match preferred with
  | some resolved =>
      .ok resolved
  | none =>
      match scopes.unaliasedCommands name with
      | [] =>
          .error (.unknownCommand name)
      | [resolved] =>
          .ok resolved
      | candidates =>
          .error (.ambiguousCommand name (candidates.map ResolvedCommand.key))

/-- Find the module that a command belongs to. -/
def resolve
    (scopes : Scopes)
    (qualifier : Option String)
    (name : String) : Except ResolutionError ResolvedCommand :=
  match qualifier with
  | none =>
      scopes.resolvePlain name
  | some qualifier =>
      scopes.resolveQualified qualifier name

end Scopes

end ScriptCompletion
