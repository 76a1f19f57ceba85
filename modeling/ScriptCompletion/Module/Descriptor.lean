import ScriptCompletion.Failure
import ScriptCompletion.Keyed
import ScriptCompletion.Script.Tree
import ScriptCompletion.Text.Quoted

namespace ScriptCompletion

/-!
# Modules and bindings

A module offers commands and helpers.  A command may come with an evaluator,
which says what the command would bind, and with candidates for its arguments.
Both are shown everything that is in scope: all frames with their bindings, and
of a bound module what can be said without running its functions.  An evaluator
may ask the collaborators as often as it likes, one question after another, and
go on with what they answer.
-/

/-- The three kinds of names. -/
inductive Space where
  | module
  | alias
  | variable
deriving Repr, DecidableEq

/-- The written form of a space. -/
def Space.label : Space → String
  | .module =>
      "MODULE"
  | .alias =>
      "ALIAS"
  | .variable =>
      "USER"

/-- What a name stands for. -/
inductive BoundValue (Descriptor : Type) where
  | module (descriptor : Descriptor)
  /-- Another name of the module with the target name. -/
  | alias (target : String)
  | variable (text : String)

/-- A name and what it stands for. -/
structure BindingOf (Descriptor : Type) where
  name : String
  value : BoundValue Descriptor

/-- A helper that a module offers. -/
structure HelperEntry where
  name : String
  description : String
deriving Repr, DecidableEq

/-- What can be seen of a command that a module offers. -/
structure CommandView where
  name : String
  description : String
  /-- Whether the command has an evaluator. -/
  isEvaluated : Bool
  /-- Whether the command has candidates for its arguments. -/
  hasCandidates : Bool
deriving Repr, DecidableEq

/-- What can be seen of a module that is in scope. -/
structure ModuleView where
  identity : Nat
  name : String
  commands : List CommandView
  helpers : List HelperEntry
deriving Repr, DecidableEq

/-- What can be seen of one frame. -/
structure FrameView where
  bindings : List (BindingOf ModuleView)
  context : Option String

/-- What can be seen of the frames in scope, innermost first. -/
abbrev ScopesView :=
  List FrameView

/-- The text of a variable of the given name, if the binding is one. -/
def BindingOf.variableText?
    {Descriptor : Type}
    (name : String)
    (binding : BindingOf Descriptor) : Option String :=
  match binding.value with
  | .variable text =>
      if binding.name = name then
        some text
      else
        none
  | .module _ | .alias _ =>
      none

/-- The name of a variable, if the binding is one. -/
def BindingOf.variableName?
    {Descriptor : Type}
    (binding : BindingOf Descriptor) : Option String :=
  match binding.value with
  | .variable _ =>
      some binding.name
  | .module _ | .alias _ =>
      none

namespace ScopesView

/-- The text of a variable that is in scope. -/
def variableText?
    (view : ScopesView)
    (name : String) : Option String :=
  view.findSome? fun frame =>
    frame.bindings.findSome? (BindingOf.variableText? name)

/-- The names of the variables in scope, those of outer frames first. -/
def variableNames (view : ScopesView) : List String :=
  Keyed.distinctBy id
    (view.reverse.flatMap fun frame =>
      frame.bindings.filterMap BindingOf.variableName?)

end ScopesView

/-- What an evaluator is told. -/
structure EvaluationRequest where
  command : Script.Command
  scopes : ScopesView

/-- The text of a variable that is in scope. -/
def EvaluationRequest.variableText?
    (request : EvaluationRequest)
    (name : String) : Option String :=
  ScopesView.variableText? request.scopes name

/-- What an evaluator does after a delay in milliseconds. -/
inductive EvaluationOf (Descriptor : Type) where
  /-- Give a result. -/
  | finished
      (delay : Nat)
      (result : Except EvaluationError (List (BindingOf Descriptor)))
  /-- Ask for the address behind a name and go on with the answer. -/
  | resolving
      (delay : Nat)
      (name : String)
      (next : Except ExternalError (Option String) → EvaluationOf Descriptor)
  /-- Ask for the document at an address and go on with the answer. -/
  | fetching
      (delay : Nat)
      (address : String)
      (next : Except ExternalError String → EvaluationOf Descriptor)

/-- What the candidates of an argument may depend on. -/
structure CandidateQuery where
  /-- The index of the argument at the cursor. -/
  index : Nat
  /-- The arguments in front of it. -/
  arguments : List Script.Argument
  scopes : ScopesView

/-- The names of the variables in scope. -/
def CandidateQuery.variableNames (query : CandidateQuery) : List String :=
  ScopesView.variableNames query.scopes

/-- A command that a module offers. -/
structure CommandEntryOf (Descriptor : Type) where
  name : String
  description : String
  evaluator : Option (EvaluationRequest → EvaluationOf Descriptor)
  candidates : Option (CandidateQuery → List String)

/-- A module with its commands and helpers, each under its own name. -/
structure Module where
  /-- Tells modules of equal content apart. -/
  identity : Nat
  name : String
  commands : List (CommandEntryOf Module)
  helpers : List HelperEntry

/-- What a name stands for. -/
abbrev Value :=
  BoundValue Module

/-- A name and what it stands for. -/
abbrev Binding :=
  BindingOf Module

/-- What an evaluator does. -/
abbrev Evaluation :=
  EvaluationOf Module

/-- A command that a module offers. -/
abbrev CommandEntry :=
  CommandEntryOf Module

namespace Value

/-- The space that the value belongs to. -/
def space : Value → Space
  | .module _ =>
      .module
  | .alias _ =>
      .alias
  | .variable _ =>
      .variable

/-- The module itself. -/
def module? : Value → Option Module
  | .module descriptor =>
      some descriptor
  | .alias _ | .variable _ =>
      none

/-- The target of an alias or the text of a variable. -/
def text? : Value → Option String
  | .module _ =>
      none
  | .alias target =>
      some target
  | .variable text =>
      some text

/-- Whether two values are the same; modules are the same by identity. -/
def same : Value → Value → Bool
  | .module first, .module second =>
      first.identity == second.identity
  | .alias first, .alias second =>
      first == second
  | .variable first, .variable second =>
      first == second
  | _, _ =>
      false

end Value

namespace Binding

/-- A module under a key. -/
def ofModule
    (key : String)
    (descriptor : Module) : Binding :=
  ⟨key, .module descriptor⟩

/-- An alias of a module. -/
def ofAlias
    (name : String)
    (target : String) : Binding :=
  ⟨name, .alias target⟩

/-- A variable with its text. -/
def ofVariable
    (name : String)
    (text : String) : Binding :=
  ⟨name, .variable text⟩

/-- The space that the binding belongs to. -/
def space (binding : Binding) : Space :=
  Value.space binding.value

/-- What no two bindings of a scope share. -/
def key (binding : Binding) : Space × String :=
  (Binding.space binding, binding.name)

/-- The module that is bound, if it is one. -/
def module? (binding : Binding) : Option Module :=
  Value.module? binding.value

/-- The alias target or variable text that is bound. -/
def text? (binding : Binding) : Option String :=
  Value.text? binding.value

/-- Whether two bindings have one name and the same value. -/
def same
    (first : Binding)
    (second : Binding) : Bool :=
  first.name == second.name && Value.same first.value second.value

end Binding

namespace Module

/-- A module that offers nothing yet. -/
def named (name : String) : Module where
  identity := 0
  name := name
  commands := []
  helpers := []

/-- Add a command; one of the same name is replaced where it stands. -/
def withCommand
    (module : Module)
    (command : CommandEntry) : Module :=
  { module with
    commands := Keyed.put CommandEntryOf.name command module.commands }

/-- Add a helper; one of the same name is replaced where it stands. -/
def withHelper
    (module : Module)
    (helper : HelperEntry) : Module :=
  { module with
    helpers := Keyed.put HelperEntry.name helper module.helpers }

/-- What can be seen of the module where it is in scope. -/
def view (module : Module) : ModuleView where
  identity := module.identity
  name := module.name
  commands :=
    module.commands.map fun command =>
      { name := command.name
        description := command.description
        isEvaluated := command.evaluator.isSome
        hasCandidates := command.candidates.isSome }
  helpers := module.helpers

/-- The command with a name. -/
def command?
    (module : Module)
    (name : String) : Option CommandEntry :=
  Keyed.find? CommandEntryOf.name name module.commands

end Module

/-- What can be seen of a binding. -/
def Binding.view (binding : Binding) : BindingOf ModuleView where
  name := binding.name
  value :=
    match binding.value with
    | .module descriptor =>
        .module descriptor.view
    | .alias target =>
        .alias target
    | .variable text =>
        .variable text

namespace CommandEntryOf

/-- A command without evaluator and candidates. -/
def plain
    (name : String)
    (description : String) : CommandEntry where
  name := name
  description := description
  evaluator := none
  candidates := none

/-- A command with an evaluator. -/
def evaluated
    (name : String)
    (description : String)
    (evaluator : EvaluationRequest → Evaluation) : CommandEntry where
  name := name
  description := description
  evaluator := some evaluator
  candidates := none

/-- A command with candidates for its arguments. -/
def suggesting
    (name : String)
    (description : String)
    (candidates : CandidateQuery → List String) : CommandEntry where
  name := name
  description := description
  evaluator := none
  candidates := some candidates

/-- A line for diagnostics that says what the command comes with. -/
def describe (entry : CommandEntry) : String :=
  let name := Text.diagnostic entry.name
  let evaluator := entry.evaluator.isSome
  let candidates := entry.candidates.isSome
  "CommandDescriptor \x7b " ++
    s!"name: {name}, eager: {evaluator}, arg_completions: {candidates}" ++
    " \x7d"

end CommandEntryOf

end ScriptCompletion
