import ScriptCompletion.Text.Position

namespace ScriptCompletion

/-!
# Failures

Nothing that goes wrong with one command stops a completion: the failure is
recorded beside the command, and the other commands are treated as usual.  Each
stage has its own causes, and every cause has one wording.
-/

/-- Misuse of the scopes. -/
inductive ScopeError where
  | exitRootScope
deriving Repr, DecidableEq

/-- The wording of a scope error. -/
def ScopeError.message : ScopeError → String
  | .exitRootScope =>
      "cannot exit the root scope"

/-- Why a command belongs to no module. -/
inductive ResolutionError where
  | unknownModule (module : String)
  | unknownAlias (name : String)
  | unknownCommand (command : String)
  | ambiguousCommand (command : String) (candidates : List String)
deriving Repr, DecidableEq

/-- The wording of a resolution error. -/
def ResolutionError.message : ResolutionError → String
  | .unknownModule module =>
      s!"Unknown module: {module}"
  | .unknownAlias name =>
      s!"Unknown alias: {name}"
  | .unknownCommand command =>
      s!"Unknown command: {command}"
  | .ambiguousCommand command candidates =>
      let listed := ", ".intercalate candidates
      s!"Ambiguous command {command}, found in modules: {listed}"

/-- Why a collaborator gave no answer. -/
inductive ExternalError where
  | timeout (operation : String) (milliseconds : Nat)
  | provider (message : String)
  | content (message : String)
deriving Repr, DecidableEq

/-- The wording of a failed call. -/
def ExternalError.message : ExternalError → String
  | .timeout operation milliseconds =>
      s!"{operation} timed out after {milliseconds}ms"
  | .provider message =>
      s!"Provider error: {message}"
  | .content message =>
      s!"Content resolver error: {message}"

/-- Why the evaluation of a command gave no bindings. -/
inductive EvaluationError where
  | missingArgument (command : String) (argument : String)
  | invalidArgument (command : String) (value : String) (reason : String)
  | unresolved (command : String) (message : String)
  | external (error : ExternalError)
deriving Repr, DecidableEq

/-- The wording of a failed evaluation. -/
def EvaluationError.message : EvaluationError → String
  | .missingArgument command argument =>
      s!"{command}: missing argument <{argument}>"
  | .invalidArgument command value reason =>
      s!"{command}: invalid argument {value}, {reason}"
  | .unresolved command message =>
      s!"{command}: {message}"
  | .external error =>
      error.message

/-- Why a module was not loaded. -/
inductive LoadError where
  | notFound (name : String)
  | alreadyLoaded (name : String)
  | aliasInUse (name : String)
  | invalidContent (name : String) (detail : String)
  | external (error : ExternalError)
deriving Repr, DecidableEq

/-- The wording of a failed load. -/
def LoadError.message : LoadError → String
  | .notFound name =>
      s!"Module {name} not found"
  | .alreadyLoaded name =>
      s!"Module {name} already loaded"
  | .aliasInUse name =>
      s!"Alias {name} already in use"
  | .invalidContent name detail =>
      s!"Module {name} could not be built: {detail}"
  | .external error =>
      error.message

/-- Anything that can go wrong. -/
inductive Failure where
  | scope (error : ScopeError)
  | resolution (error : ResolutionError)
  | external (error : ExternalError)
  | evaluation (error : EvaluationError)
  | load (error : LoadError)
  | script (position : Position) (message : String)
  | configuration (message : String)
deriving Repr, DecidableEq

/-- The wording of a failure. -/
def Failure.message : Failure → String
  | .scope error =>
      error.message
  | .resolution error =>
      error.message
  | .external error =>
      error.message
  | .evaluation error =>
      error.message
  | .load error =>
      error.message
  | .script ⟨line, column⟩ message =>
      s!"Parse error at {line}:{column}: {message}"
  | .configuration message =>
      s!"Invalid configuration: {message}"

/-- A command whose contribution was dropped. -/
structure CommandFailure where
  command : String
  line : Option Nat
  failure : Failure
deriving Repr, DecidableEq

end ScriptCompletion
